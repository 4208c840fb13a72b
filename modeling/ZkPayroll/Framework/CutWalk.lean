import Mathlib.Data.Fintype.Powerset
import Mathlib.Logic.Relation

/-!
# Walks that stop at what they are in

A walk of a graph goes from a node along all its edges. It records some of the
nodes while it is in them, and stops where it comes to one again. In a finite
graph it returns just when there is no cycle among the nodes that are not
recorded, of those that it can come to (`walkEnds_iff`).
-/

namespace ZkPayroll.Framework

open Relation

variable {ι : Type} (edge : ι → ι → Prop) (recorded : ι → Prop)

/-- What is recorded within a node, where `seen` is before it. -/
def recording (seen : Set ι) (a : ι) : Set ι := {b | b ∈ seen ∨ recorded a ∧ b = a}

/-- The walk from a node returns, where those in `seen` are recorded. -/
inductive WalkEnds : Set ι → ι → Prop where
  | cut {seen : Set ι} {a : ι} (hrecorded : recorded a) (hseen : a ∈ seen) : WalkEnds seen a
  | node {seen : Set ι} {a : ι} (hfree : recorded a → a ∉ seen)
      (hedges : ∀ b, edge a b → WalkEnds (recording recorded seen a) b) : WalkEnds seen a

/-- An edge from a node that is not recorded. -/
def FreeEdge (a b : ι) : Prop := edge a b ∧ ¬ recorded a

variable {edge recorded}

section Cycles

variable {seen : Set ι} {a b x : ι}

/-- No walk returns from a cycle of nodes that are not recorded. -/
theorem WalkEnds.no_cycle (h : WalkEnds edge recorded seen a) : ¬ TransGen (FreeEdge edge recorded) a a := by
  induction h with
  | cut hrecorded _ =>
    intro hcycle
    obtain ⟨b, hstep, -⟩ := TransGen.head'_iff.mp hcycle
    exact hstep.2 hrecorded
  | node _ _ ih =>
    intro hcycle
    obtain ⟨b, hstep, hrest⟩ := TransGen.head'_iff.mp hcycle
    exact ih b hstep.1 (TransGen.tail' hrest hstep)

/-- A path that is never in `seen` after its start. -/
def Avoiding (edge : ι → ι → Prop) (seen : Set ι) : ι → ι → Prop :=
  ReflTransGen fun a b => edge a b ∧ b ∉ seen

theorem Avoiding.mono {seen' : Set ι} (hsub : seen' ⊆ seen) (h : Avoiding edge seen a b) : Avoiding edge seen' a b :=
  ReflTransGen.mono (fun _ _ hstep => ⟨hstep.1, fun hin => hstep.2 (hsub hin)⟩) a b h

/-- After its last visit of `x`, a path avoids `x` too. -/
theorem Avoiding.leave (hne : a ≠ x) (h : Avoiding edge seen b a) :
    b ≠ x ∧ Avoiding edge (insert x seen) b a ∨
      ∃ y, edge x y ∧ y ∉ insert x seen ∧ Avoiding edge (insert x seen) y a := by
  induction h using ReflTransGen.head_induction_on with
  | refl => exact .inl ⟨hne, .refl⟩
  | @head u v hstep _ ih =>
    rcases ih with ⟨hv, hpath⟩ | hleave
    · have hnew : v ∉ insert x seen := fun hin => hin.elim hv hstep.2
      by_cases hu : u = x
      · exact .inr ⟨v, hu ▸ hstep.1, hnew, hpath⟩
      · exact .inl ⟨hu, .head ⟨hstep.1, hnew⟩ hpath⟩
    · exact .inr hleave

/-- A walk that returns has been at the end of every path that it does not cut. -/
theorem WalkEnds.no_cycle_after (h : WalkEnds edge recorded seen b) (hb : b ∉ seen) (hpath : Avoiding edge seen b a) :
    ¬ TransGen (FreeEdge edge recorded) a a := by
  induction h with
  | cut _ hseen => exact absurd hseen hb
  | @node seen b hfree hedges ih =>
    by_cases hab : a = b
    · rw [hab]
      exact (WalkEnds.node hfree hedges).no_cycle
    · rcases hpath.leave hab with ⟨hne, -⟩ | ⟨y, hedge, hy, hrest⟩
      · exact absurd rfl hne
      · have hsub : recording recorded seen b ⊆ insert b seen := fun c hc => hc.elim .inr fun hc => .inl hc.2
        exact ih y hedge (fun hin => hy (hsub hin)) (hrest.mono hsub)

end Cycles

/-- Where no cycle can be come to that is not recorded, the walk returns: it
records one more node, or goes on among those that it does not record. -/
theorem walkEnds_of_no_cycle [Finite ι] {root : ι}
    (h : ∀ a, ReflTransGen edge root a → ¬ TransGen (FreeEdge edge recorded) a a) (seen : Set ι) :
    ∀ a, ReflTransGen edge root a → WalkEnds edge recorded seen a := by
  let below : ι → ι → Prop := fun b a => ReflTransGen edge root a ∧ TransGen (FreeEdge edge recorded) a b
  have htrans : IsTrans ι below := ⟨fun _ _ _ hcb hba => ⟨hba.1, hba.2.trans hcb.2⟩⟩
  have hirrefl : Std.Irrefl below := ⟨fun a haa => h a haa.1 haa.2⟩
  have hwf : WellFounded below := Finite.wellFounded_of_trans_of_irrefl below
  induction seen using WellFoundedGT.induction with
  | ind seen ihseen =>
    intro a
    induction a using hwf.induction with
    | h a ih =>
      intro hreach
      by_cases hrecorded : recorded a
      · by_cases hseen : a ∈ seen
        · exact .cut hrecorded hseen
        · have hmore : seen < recording recorded seen a :=
            ⟨fun _ hb => .inl hb, fun hsub => hseen (hsub (.inr ⟨hrecorded, rfl⟩))⟩
          exact .node (fun _ => hseen) fun b hedge => ihseen _ hmore b (hreach.tail hedge)
      · have hsame : recording recorded seen a = seen :=
          Set.ext fun b => ⟨fun hb => hb.elim id fun hb => absurd hb.1 hrecorded, .inl⟩
        refine .node (fun hr => absurd hr hrecorded) fun b hedge => ?_
        rw [hsame]
        exact ih b ⟨hreach, .single ⟨hedge, hrecorded⟩⟩ (hreach.tail hedge)

/-- In a finite graph, a walk returns just when it can come to no cycle that is
not recorded. -/
theorem walkEnds_iff [Finite ι] {root : ι} : WalkEnds edge recorded ∅ root ↔
    ∀ a, ReflTransGen edge root a → ¬ TransGen (FreeEdge edge recorded) a a := by
  refine ⟨fun h a hreach => ?_, fun h => walkEnds_of_no_cycle h ∅ root .refl⟩
  refine h.no_cycle_after (Set.notMem_empty root) ?_
  exact ReflTransGen.mono (fun _ b hedge => ⟨hedge, Set.notMem_empty b⟩) root a hreach

end ZkPayroll.Framework
