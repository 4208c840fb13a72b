import ZkPayroll.Audit.AuditRedactionHelper
import ZkPayroll.Audit.StableJson
import ZkPayroll.Framework.CutWalk
import ZkPayroll.Framework.Firsts

/-!
# Redaction of debug data

`redactDebugData` of `debug/redactor.ts`. The data are a graph of objects, each
at its address, which may lead back to what they are in. A walk has some depth
of calls, and is nothing where it needs more.

What is returned has the placeholder under every sensitive key (`walk_clean`).
Arrays and objects are recorded while the walk is in them and maps and sets are
not, as it is a new object or array with their parts that is walked. So the
redaction returns just when no cycle of maps and sets can be come to
(`redacts_iff`).
-/

namespace ZkPayroll.Debug

open Framework Redaction

variable {ι ν : Type}

/-! ## Data -/

/-- A value: a primitive one, or the object at an address. -/
inductive DebugValue (ι ν : Type) where
  | prim (p : Primitive ν)
  | ref (address : ι)

/-- An object. It has its own enumerable properties, as `Object.entries` lists
them, and so has an error, whose message is not among them. A map has its
entries under the texts of their keys; a date is valid. -/
inductive HeapObject (ι ν : Type) where
  | date (iso : List Nat)
  | regexp (text : List Nat)
  | map (entries : List (String × DebugValue ι ν))
  | set (values : List (DebugValue ι ν))
  | uint8Array (bytes : List (Fin 256))
  | view (elements : List (Primitive ν))
  | array (items : List (DebugValue ι ν))
  | object (entries : List (String × DebugValue ι ν))

structure RedactDebugDataOptions where
  additionalKeys : Option (List String) := none
  placeholder : Option (List Nat) := none

structure RedactedDebugData (ν : Type) where
  redactedData : PlainValue ν
  redactedFieldCount : Nat
  redactedKeys : List String

def EXTRA_PAYROLL_SENSITIVE_KEYS : List String :=
  ["recipient", "amount", "asset", "witness", "salary", "salaryAmount", "employer", "employee", "commitment",
    "commitmentHash", "nullifier", "privateKey", "adminKey", "secretKey", "signingKey", "viewKey", "viewingKey"]

def buildDebugSensitiveKeys (additionalKeys : List String) : List String :=
  firsts id [] (defaultSensitiveFields ++ Audit.DEFAULT_SENSITIVE_KEYS ++ EXTRA_PAYROLL_SENSITIVE_KEYS ++ additionalKeys)

/-! ## Redaction -/

def toHex (bytes : List (Fin 256)) : List Nat :=
  bytes.flatMap fun byte => [(Nat.digitChar (byte / 16)).toNat, (Nat.digitChar (byte % 16)).toNat]

/-- The entries of `Object.fromEntries(entries)`. -/
def fromEntries (entries : List (String × DebugValue ι ν)) : List (String × DebugValue ι ν) :=
  Audit.propertyOrder (entries.foldl (fun properties entry => setKey entry.1 entry.2 properties) [])

section Walk

variable (toLowerCase : String → String) (options : RedactDebugDataOptions)

/-- `sensitive.has(key.toLowerCase())`, where `toLowerCase` is that of strings. -/
def isSensitive (key : String) : Bool :=
  decide (toLowerCase key ∈ (buildDebugSensitiveKeys (options.additionalKeys.getD [])).map toLowerCase)

def placeholder : List Nat := options.placeholder.getD (codeUnits "[REDACTED]")

/-- `items.map(walk)`, with the keys that are redacted. -/
def walkItems (walk : DebugValue ι ν → Option (PlainValue ν × List String)) :
    List (DebugValue ι ν) → Option (List (PlainValue ν) × List String)
  | [] => some ([], [])
  | v :: items => do
    let out ← walk v
    let rest ← walkItems walk items
    return (out.1 :: rest.1, out.2 ++ rest.2)

/-- What is assigned under a key. -/
def walkEntry (walk : DebugValue ι ν → Option (PlainValue ν × List String)) (key : String) (val : DebugValue ι ν) :
    Option (PlainValue ν × List String) :=
  if isSensitive toLowerCase options key then some (.prim (.str (placeholder options)), [key])
  else walk val

/-- The assignments to the properties of `out`. -/
def walkEntries (walk : DebugValue ι ν → Option (PlainValue ν × List String)) :
    List (String × DebugValue ι ν) → Option (List (String × PlainValue ν) × List String)
  | [] => some ([], [])
  | (key, val) :: entries => do
    let out ← walkEntry toLowerCase options walk key val
    let rest ← walkEntries walk entries
    return ((key, out.1) :: rest.1, out.2 ++ rest.2)

variable [DecidableEq ι] (heap : ι → HeapObject ι ν)

/-- `walk`, in some depth of calls. What is added to `seen` is deleted after the
walk of its parts, so only these have it there. -/
def walk : Nat → List ι → DebugValue ι ν → Option (PlainValue ν × List String)
  | 0, _, _ => none
  | _ + 1, _, .prim (.bigint n) => some (.prim (.str (codeUnits (toString n))), [])
  | _ + 1, _, .prim p => some (.prim p, [])
  | depth + 1, seen, .ref address =>
    match heap address with
    | .date iso => some (.prim (.str iso), [])
    | .regexp text => some (.prim (.str text), [])
    -- the new object and the new array are in no one's `seen`
    | .map entries => do
      let out ← walkEntries toLowerCase options (walk depth seen) (fromEntries entries)
      return (assignedTo out.1, out.2)
    | .set values => do
      let out ← walkItems (walk depth seen) values
      return (.arr out.1, out.2)
    | .uint8Array bytes => some (.prim (.str (toHex bytes)), [])
    | .view elements => some (.arr (elements.map .prim), [])
    | .array items =>
      if address ∈ seen then some (.prim (.str (codeUnits "[Circular]")), [])
      else do
        let out ← walkItems (walk depth (address :: seen)) items
        return (.arr out.1, out.2)
    | .object entries =>
      if address ∈ seen then some (.prim (.str (codeUnits "[Circular]")), [])
      else do
        let out ← walkEntries toLowerCase options (walk depth (address :: seen)) entries
        return (assignedTo out.1, out.2)

def redactDebugData (depth : Nat) (data : DebugValue ι ν) : Option (RedactedDebugData ν) := do
  let out ← walk toLowerCase options heap depth [] data
  return {
    redactedData := out.1
    redactedFieldCount := out.2.length
    redactedKeys := out.2.foldl noteField [] }

end Walk

/-! ## What is returned -/

/-- The value has the placeholder wherever a key of it is sensitive. -/
inductive Clean (sensitive : String → Bool) (placeholder : List Nat) : PlainValue ν → Prop where
  | prim (p : Primitive ν) : Clean sensitive placeholder (.prim p)
  | arr {items : List (PlainValue ν)} (hitems : ∀ v ∈ items, Clean sensitive placeholder v) :
    Clean sensitive placeholder (.arr items)
  | obj {fields : List (String × PlainValue ν)}
      (hsensitive : ∀ f ∈ fields, sensitive f.1 = true → f.2 = .prim (.str placeholder))
      (hfields : ∀ f ∈ fields, Clean sensitive placeholder f.2) : Clean sensitive placeholder (.obj fields)
  | objOf {proto : PlainValue ν} {fields : List (String × PlainValue ν)}
      (hproto : Clean sensitive placeholder proto)
      (hsensitive : ∀ f ∈ fields, sensitive f.1 = true → f.2 = .prim (.str placeholder))
      (hfields : ∀ f ∈ fields, Clean sensitive placeholder f.2) : Clean sensitive placeholder (.objOf proto fields)

section Returned

variable {toLowerCase : String → String} {options : RedactDebugDataOptions}

/-- Assignments of clean values make a clean object, whatever prototype it gets. -/
theorem clean_assignedTo {sensitive : String → Bool} {placeholder : List Nat}
    {assignments : List (String × PlainValue ν)}
    (hsensitive : ∀ f ∈ assignments, sensitive f.1 = true → f.2 = .prim (.str placeholder))
    (hfields : ∀ f ∈ assignments, Clean sensitive placeholder f.2) :
    Clean sensitive placeholder (assignedTo assignments) := by
  have hown : ∀ f ∈ assignments.filter fun f => f.1 ≠ "__proto__", f ∈ assignments := by
    intro f hf
    exact List.mem_of_mem_filter hf
  unfold assignedTo
  dsimp only
  split
  · rename_i proto hfind
    exact .objOf (hfields _ (List.mem_of_find?_eq_some hfind)) (fun f hf => hsensitive f (hown f hf))
      fun f hf => hfields f (hown f hf)
  · exact .obj (fun f hf => hsensitive f (hown f hf)) fun f hf => hfields f (hown f hf)

variable {walked : DebugValue ι ν → Option (PlainValue ν × List String)}

theorem walkItems_clean {sensitive : String → Bool} {placeholder : List Nat}
    (hwalk : ∀ v out, walked v = some out → Clean sensitive placeholder out.1) :
    ∀ {items : List (DebugValue ι ν)} {out : List (PlainValue ν) × List String},
      walkItems walked items = some out → ∀ v ∈ out.1, Clean sensitive placeholder v
  | [], out, h => by
    cases h
    exact List.forall_mem_nil _
  | v :: items, out, h => by
    obtain ⟨first, hfirst, h⟩ := Option.bind_eq_some_iff.mp h
    obtain ⟨rest, hrest, h⟩ := Option.bind_eq_some_iff.mp h
    cases h
    exact List.forall_mem_cons.mpr ⟨hwalk v first hfirst, walkItems_clean hwalk hrest⟩

theorem walkEntries_clean
    (hwalk : ∀ v out, walked v = some out → Clean (isSensitive toLowerCase options) (placeholder options) out.1) :
    ∀ {entries : List (String × DebugValue ι ν)} {out : List (String × PlainValue ν) × List String},
      walkEntries toLowerCase options walked entries = some out →
      (∀ f ∈ out.1, isSensitive toLowerCase options f.1 = true → f.2 = .prim (.str (placeholder options))) ∧
        ∀ f ∈ out.1, Clean (isSensitive toLowerCase options) (placeholder options) f.2
  | [], out, h => by
    cases h
    exact ⟨List.forall_mem_nil _, List.forall_mem_nil _⟩
  | (key, val) :: entries, out, h => by
    obtain ⟨first, hfirst, h⟩ := Option.bind_eq_some_iff.mp h
    obtain ⟨rest, hrest, h⟩ := Option.bind_eq_some_iff.mp h
    cases h
    obtain ⟨hsensitive, hclean⟩ := walkEntries_clean hwalk hrest
    by_cases hkey : isSensitive toLowerCase options key = true
    · rw [walkEntry, if_pos hkey] at hfirst
      cases hfirst
      exact ⟨List.forall_mem_cons.mpr ⟨fun _ => rfl, hsensitive⟩, List.forall_mem_cons.mpr ⟨.prim _, hclean⟩⟩
    · rw [walkEntry, if_neg hkey] at hfirst
      exact ⟨List.forall_mem_cons.mpr ⟨fun htrue => absurd htrue hkey, hsensitive⟩,
        List.forall_mem_cons.mpr ⟨hwalk val first hfirst, hclean⟩⟩

variable [DecidableEq ι] {heap : ι → HeapObject ι ν}

/-- What a walk returns has no value under a sensitive key but the placeholder. -/
theorem walk_clean : ∀ {depth : Nat} {seen : List ι} {v : DebugValue ι ν} {out : PlainValue ν × List String},
    walk toLowerCase options heap depth seen v = some out →
      Clean (isSensitive toLowerCase options) (placeholder options) out.1
  | 0, _, _, _, h => by cases h
  | depth + 1, seen, .prim p, out, h => by
    cases p <;> cases h <;> exact .prim _
  | depth + 1, seen, .ref address, out, h => by
    have hentries : ∀ {seen : List ι} {entries : List (String × DebugValue ι ν)},
        ((walkEntries toLowerCase options (walk toLowerCase options heap depth seen) entries).bind fun out =>
          some (assignedTo out.1, out.2)) = some out →
        Clean (isSensitive toLowerCase options) (placeholder options) out.1 := by
      intro seen entries h
      obtain ⟨parts, hparts, h⟩ := Option.bind_eq_some_iff.mp h
      cases h
      obtain ⟨hsensitive, hclean⟩ := walkEntries_clean (fun _ _ hv => walk_clean hv) hparts
      exact clean_assignedTo hsensitive hclean
    have hitems : ∀ {seen : List ι} {items : List (DebugValue ι ν)},
        ((walkItems (walk toLowerCase options heap depth seen) items).bind fun out =>
          some (PlainValue.arr out.1, out.2)) = some out →
        Clean (isSensitive toLowerCase options) (placeholder options) out.1 := by
      intro seen items h
      obtain ⟨parts, hparts, h⟩ := Option.bind_eq_some_iff.mp h
      cases h
      exact .arr (walkItems_clean (fun _ _ hv => walk_clean hv) hparts)
    rw [walk] at h
    cases hobject : heap address with
    | date iso =>
      rw [hobject] at h
      cases h
      exact .prim _
    | regexp text =>
      rw [hobject] at h
      cases h
      exact .prim _
    | map entries =>
      rw [hobject] at h
      exact hentries h
    | set values =>
      rw [hobject] at h
      exact hitems h
    | uint8Array bytes =>
      rw [hobject] at h
      cases h
      exact .prim _
    | view elements =>
      rw [hobject] at h
      cases h
      refine .arr fun v hv => ?_
      obtain ⟨p, -, rfl⟩ := List.mem_map.mp hv
      exact .prim p
    | array items =>
      rw [hobject] at h
      dsimp only at h
      split at h
      · cases h
        exact .prim _
      · exact hitems h
    | object entries =>
      rw [hobject] at h
      dsimp only at h
      split at h
      · cases h
        exact .prim _
      · exact hentries h

end Returned

/-! ## When it returns -/

/-- Whether the walk has the object in `seen` while it is in it. -/
def isRecorded : HeapObject ι ν → Bool
  | .array _ | .object _ => true
  | _ => false

section Paths

variable (toLowerCase : String → String) (options : RedactDebugDataOptions)

/-- The values that are not under a sensitive key. -/
def openValues (entries : List (String × DebugValue ι ν)) : List (DebugValue ι ν) :=
  (entries.filter fun entry => !isSensitive toLowerCase options entry.1).map Prod.snd

/-- The values that the walk of an object goes on to. -/
def walkedParts : HeapObject ι ν → List (DebugValue ι ν)
  | .map entries => openValues toLowerCase options (fromEntries entries)
  | .set values => values
  | .array items => items
  | .object entries => openValues toLowerCase options entries
  | _ => []

variable (heap : ι → HeapObject ι ν)

/-- The walk goes on from one address to the other. -/
def Edge (a b : ι) : Prop := .ref b ∈ walkedParts toLowerCase options (heap a)

/-- The walk keeps a record of the object. -/
def Recorded (a : ι) : Prop := isRecorded (heap a) = true

end Paths

section Depth

variable {toLowerCase : String → String} {options : RedactDebugDataOptions}
  {walked : DebugValue ι ν → Option (PlainValue ν × List String)}

theorem isSome_walkItems : ∀ {items : List (DebugValue ι ν)},
    (walkItems walked items).isSome = true ↔ ∀ v ∈ items, (walked v).isSome = true
  | [] => iff_of_true rfl (List.forall_mem_nil _)
  | v :: items => by
    rw [List.forall_mem_cons, ← isSome_walkItems, walkItems]
    cases walked v with
    | none => simp
    | some out =>
      cases walkItems walked items with
      | none => simp
      | some rest => simp

theorem isSome_walkEntries : ∀ {entries : List (String × DebugValue ι ν)},
    (walkEntries toLowerCase options walked entries).isSome = true ↔
      ∀ v ∈ openValues toLowerCase options entries, (walked v).isSome = true
  | [] => iff_of_true rfl (List.forall_mem_nil _)
  | (key, val) :: entries => by
    have ih : (walkEntries toLowerCase options walked entries).isSome = true ↔
        ∀ v ∈ openValues toLowerCase options entries, (walked v).isSome = true := isSome_walkEntries
    rw [walkEntries, walkEntry]
    by_cases hkey : isSensitive toLowerCase options key = true
    · have hopen : openValues toLowerCase options ((key, val) :: entries) = openValues toLowerCase options entries := by
        rw [openValues, List.filter_cons_of_neg (by simp [hkey]), openValues]
      rw [hopen, ← ih, if_pos hkey]
      cases walkEntries toLowerCase options walked entries with
      | none => simp
      | some rest => simp
    · have hopen : openValues toLowerCase options ((key, val) :: entries) =
          val :: openValues toLowerCase options entries := by
        rw [openValues, List.filter_cons_of_pos (by simp [hkey]), List.map_cons, openValues]
      rw [hopen, List.forall_mem_cons, ← ih, if_neg hkey]
      cases walked val with
      | none => simp
      | some out =>
        cases walkEntries toLowerCase options walked entries with
        | none => simp
        | some rest => simp

variable [DecidableEq ι] {heap : ι → HeapObject ι ν}

/-- The addresses that a walk has in `seen` within an object. -/
def seenWithin (heap : ι → HeapObject ι ν) (seen : List ι) (a : ι) : List ι :=
  if isRecorded (heap a) then a :: seen else seen

omit [DecidableEq ι] in
theorem isSome_bind_some {α β : Type} {o : Option α} {f : α → β} : (o.bind fun a => some (f a)).isSome = o.isSome := by
  cases o <;> rfl

variable {seen : List ι}

/-- One more call is enough for an object when the calls for its parts are. -/
theorem isSome_walk_ref {depth : Nat} {a : ι} :
    (walk toLowerCase options heap (depth + 1) seen (.ref a)).isSome = true ↔
      (Recorded heap a ∧ a ∈ seen) ∨ ((Recorded heap a → a ∉ seen) ∧
        ∀ v ∈ walkedParts toLowerCase options (heap a),
          (walk toLowerCase options heap depth (seenWithin heap seen a) v).isSome = true) := by
  rw [walk, Recorded, seenWithin]
  cases heap a with
  | date iso => simp [isRecorded, walkedParts]
  | regexp text => simp [isRecorded, walkedParts]
  | map entries => simp [isRecorded, walkedParts, isSome_bind_some, ← isSome_walkEntries]
  | set values => simp [isRecorded, walkedParts, isSome_bind_some, ← isSome_walkItems]
  | uint8Array bytes => simp [isRecorded, walkedParts]
  | view elements => simp [isRecorded, walkedParts]
  | array items =>
    by_cases hseen : a ∈ seen
    · simp [isRecorded, hseen]
    · simp [isRecorded, walkedParts, hseen, isSome_bind_some, ← isSome_walkItems]
  | object entries =>
    by_cases hseen : a ∈ seen
    · simp [isRecorded, hseen]
    · simp [isRecorded, walkedParts, hseen, isSome_bind_some, ← isSome_walkEntries]

theorem isSome_walk_prim {depth : Nat} (p : Primitive ν) :
    (walk toLowerCase options heap (depth + 1) seen (.prim p)).isSome = true := by
  cases p <;> rfl

theorem isSome_walk_succ : ∀ {depth : Nat} {seen : List ι} {v : DebugValue ι ν},
    (walk toLowerCase options heap depth seen v).isSome = true →
      (walk toLowerCase options heap (depth + 1) seen v).isSome = true
  | 0, _, _, h => by cases h
  | depth + 1, seen, .prim p, _ => isSome_walk_prim p
  | depth + 1, seen, .ref a, h => by
    rw [isSome_walk_ref] at h ⊢
    exact h.imp id fun h => ⟨h.1, fun v hv => isSome_walk_succ (h.2 v hv)⟩

theorem isSome_walk_mono {depth depth' : Nat} {v : DebugValue ι ν} (hle : depth ≤ depth')
    (h : (walk toLowerCase options heap depth seen v).isSome = true) :
    (walk toLowerCase options heap depth' seen v).isSome = true := by
  induction hle with
  | refl => exact h
  | step _ ih => exact isSome_walk_succ ih

/-- Enough depth for each of some values is enough for all of them. -/
theorem exists_depth {seen : List ι} : ∀ {vs : List (DebugValue ι ν)},
    (∀ v ∈ vs, ∃ depth, (walk toLowerCase options heap depth seen v).isSome = true) →
      ∃ depth, ∀ v ∈ vs, (walk toLowerCase options heap depth seen v).isSome = true
  | [], _ => ⟨0, List.forall_mem_nil _⟩
  | v :: vs, h => by
    obtain ⟨hfirst, hrest⟩ := List.forall_mem_cons.mp h
    obtain ⟨d, hd⟩ := hfirst
    obtain ⟨e, he⟩ := exists_depth hrest
    refine ⟨max d e, List.forall_mem_cons.mpr ⟨isSome_walk_mono (le_max_left d e) hd, fun w hw => ?_⟩⟩
    exact isSome_walk_mono (le_max_right d e) (he w hw)

omit [DecidableEq ι] in
theorem recording_seen (seen : List ι) (a : ι) :
    recording (Recorded heap) {b | b ∈ seen} a = {b | b ∈ seenWithin heap seen a} := by
  ext b
  rw [seenWithin]
  by_cases hrecorded : isRecorded (heap a) = true
  · simp [recording, Recorded, hrecorded, or_comm]
  · simp [recording, Recorded, hrecorded]

/-- The walk of an object returns in some depth when it returns as a walk of the
graph. -/
theorem exists_depth_iff {a : ι} :
    (∃ depth, (walk toLowerCase options heap depth seen (.ref a)).isSome = true) ↔
      WalkEnds (Edge toLowerCase options heap) (Recorded heap) {b | b ∈ seen} a := by
  constructor
  · rintro ⟨depth, h⟩
    induction depth generalizing seen a with
    | zero => cases h
    | succ depth ih =>
      rcases isSome_walk_ref.mp h with ⟨hrecorded, hseen⟩ | ⟨hfree, hparts⟩
      · exact .cut hrecorded hseen
      · refine .node hfree fun b hedge => ?_
        rw [recording_seen]
        exact ih (hparts _ hedge)
  · intro h
    generalize hset : {b | b ∈ seen} = recorded at h
    induction h generalizing seen with
    | cut hrecorded hseen =>
      subst hset
      exact ⟨1, isSome_walk_ref.mpr (.inl ⟨hrecorded, hseen⟩)⟩
    | @node _ a hfree _ ih =>
      subst hset
      have hparts : ∀ v ∈ walkedParts toLowerCase options (heap a),
          ∃ depth, (walk toLowerCase options heap depth (seenWithin heap seen a) v).isSome = true := by
        intro v hv
        cases v with
        | prim p => exact ⟨1, isSome_walk_prim p⟩
        | ref b => exact ih b hv (recording_seen seen a).symm
      obtain ⟨depth, hdepth⟩ := exists_depth hparts
      exact ⟨depth + 1, isSome_walk_ref.mpr (.inr ⟨hfree, hdepth⟩)⟩

end Depth

/-- The redaction returns, and what it returns has the placeholder under every
sensitive key. -/
def Redacts (toLowerCase : String → String) (options : RedactDebugDataOptions) [DecidableEq ι]
    (heap : ι → HeapObject ι ν) (data : DebugValue ι ν) : Prop :=
  (∃ depth, (redactDebugData toLowerCase options heap depth data).isSome = true) ∧
    ∀ depth result, redactDebugData toLowerCase options heap depth data = some result →
      Clean (isSensitive toLowerCase options) (placeholder options) result.redactedData

/-- No cycle of maps and sets can be come to but under a sensitive key. -/
def CyclesRecorded (toLowerCase : String → String) (options : RedactDebugDataOptions) (heap : ι → HeapObject ι ν)
    (data : DebugValue ι ν) : Prop :=
  ∀ root, data = .ref root → ∀ a, Relation.ReflTransGen (Edge toLowerCase options heap) root a →
    ¬ Relation.TransGen (FreeEdge (Edge toLowerCase options heap) (Recorded heap)) a a

theorem isSome_redactDebugData {toLowerCase : String → String} {options : RedactDebugDataOptions} [DecidableEq ι]
    {heap : ι → HeapObject ι ν} {depth : Nat} {data : DebugValue ι ν} :
    (redactDebugData toLowerCase options heap depth data).isSome =
      (walk toLowerCase options heap depth [] data).isSome := by
  rw [redactDebugData]
  cases walk toLowerCase options heap depth [] data <;> rfl

/-- Data of finitely many objects are redacted, whatever leads to what, but for
cycles of maps and sets alone. -/
theorem redacts_iff (toLowerCase : String → String) (options : RedactDebugDataOptions) [Fintype ι] [DecidableEq ι]
    (heap : ι → HeapObject ι ν) (data : DebugValue ι ν) :
    Redacts toLowerCase options heap data ↔ CyclesRecorded toLowerCase options heap data := by
  have hclean : ∀ depth result, redactDebugData toLowerCase options heap depth data = some result →
      Clean (isSensitive toLowerCase options) (placeholder options) result.redactedData := by
    intro depth result h
    obtain ⟨out, hout, h⟩ := Option.bind_eq_some_iff.mp h
    cases h
    exact walk_clean hout
  rw [Redacts, and_iff_left hclean]
  simp only [isSome_redactDebugData]
  cases data with
  | prim p => exact iff_of_true ⟨1, isSome_walk_prim p⟩ fun root hroot => by cases hroot
  | ref root =>
    have hnil : {b : ι | b ∈ []} = ∅ := Set.ext fun b => iff_of_false List.not_mem_nil (Set.notMem_empty b)
    rw [exists_depth_iff, hnil, walkEnds_iff]
    constructor
    · rintro h _ ⟨⟩
      exact h
    · intro h
      exact h root rfl

/-- A set that is in itself. -/
def selfSet : Unit → HeapObject Unit Int := fun _ => .set [.ref ()]

/-- Its redaction never returns. -/
theorem selfSet_not_redacted : ¬ Redacts id {} selfSet (.ref ()) := by
  rintro ⟨⟨depth, h⟩, -⟩
  rw [isSome_redactDebugData] at h
  have hreturns := exists_depth_iff.mp ⟨depth, h⟩
  have hedge : Edge id {} selfSet () () := List.mem_singleton.mpr rfl
  exact hreturns.no_cycle (.single ⟨hedge, Bool.false_ne_true⟩)

end ZkPayroll.Debug
