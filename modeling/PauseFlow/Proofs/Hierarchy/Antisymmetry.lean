import Mathlib.Data.Fintype.Pigeonhole
import Mathlib.Order.WellFounded
import PauseFlow.Proofs.Hierarchy.Legal

namespace PauseFlow.ClassTable

/-- No class is above a class that it extends. -/
def Acyclic (table : ClassTable) : Prop :=
  ∀ {lower upper : ClassId}, table.Extends lower upper → ¬ table.Below upper lower

/-- There is no way back where each link leads to an earlier class. -/
theorem acyclic_of_descends {table : ClassTable}
    (descends : ∀ {lower upper : ClassId}, table.Extends lower upper → upper.index < lower.index) :
    table.Acyclic := by
  have earlier : ∀ {lower upper : ClassId}, table.Below lower upper →
      upper.index ≤ lower.index := by
    intro lower upper path
    induction path with
    | refl => exact Nat.le_refl _
    | tail _ link ih => exact Nat.le_trans (Nat.le_of_lt (descends link)) ih
  intro lower upper link path
  exact Nat.not_lt.mpr (earlier path) (descends link)

namespace Acyclic

variable {table : ClassTable}

private theorem eq_of_below (acyclic : table.Acyclic) {lower upper : ClassId}
    (up : table.Below lower upper) (down : table.Below upper lower) : lower = upper := by
  rcases Relation.ReflTransGen.cases_head up with same | ⟨next, link, rest⟩
  · exact same
  · exact absurd (rest.trans down) (acyclic link)

/-- Links can be followed a number of times only: each leaves a class of the table, and no class is
met twice. -/
theorem wellFounded (acyclic : table.Acyclic) :
    WellFounded fun upper lower => table.Extends lower upper := by
  rw [wellFounded_iff_isEmpty_descending_chain]
  refine ⟨fun ⟨chain, links⟩ => ?_⟩
  have inside : ∀ step, (chain step).index < table.size := by
    intro step
    by_contra outside
    have link := links step
    simp [Extends, supertypes_of_size_le (Nat.le_of_not_lt outside)] at link
  have path : ∀ {first last}, first ≤ last → table.Below (chain first) (chain last) := by
    intro first last order
    induction order with
    | refl => exact Below.refl table (chain first)
    | step _ ih => exact ih.tail (links _)
  have apart : ∀ {first last}, first < last → chain first ≠ chain last := by
    intro first last order same
    exact acyclic (links first) (same ▸ path order)
  obtain ⟨left, right, different, same⟩ := Finite.exists_ne_map_eq_of_infinite
    fun step => (⟨(chain step).index, inside step⟩ : Fin table.size)
  have met : chain left = chain right := congrArg ClassId.mk (Fin.mk.inj same)
  rcases Nat.lt_or_gt_of_ne different with earlier | later
  · exact apart earlier met
  · exact apart later met.symm

theorem isAssignable_antisymm (acyclic : table.Acyclic) {left right : JvmType}
    (below : table.isAssignable left right = true) (above : table.isAssignable right left = true) :
    left = right := by
  induction left generalizing right with
  | primitive kind =>
    cases right with
    | primitive other => exact congrArg JvmType.primitive (of_decide_eq_true below)
    | ofClass id => cases below
    | arrayOf element => cases below
  | ofClass id =>
    cases right with
    | primitive kind => cases below
    | ofClass other =>
      have up := (table.isSubclass_iff_below id other).mp below
      have down := (table.isSubclass_iff_below other id).mp above
      rw [acyclic.eq_of_below up down]
    | arrayOf element => cases below
  | arrayOf element ih =>
    cases right with
    | primitive kind => cases below
    | ofClass id => cases above
    | arrayOf other =>
      rcases isAssignable_arrayOf_iff.mp below with same | ⟨_, _, elementsBelow⟩
      · rw [same]
      · rcases isAssignable_arrayOf_iff.mp above with same | ⟨_, _, elementsAbove⟩
        · rw [same]
        · rw [ih elementsBelow elementsAbove]

end Acyclic

end PauseFlow.ClassTable
