import PauseFlow.Proofs.Hierarchy.Antisymmetry

/-! Assignability is the order that a few single steps generate: a declared link, an array to the
root class, and an array to the array whose elements are one step higher. -/
namespace PauseFlow.ClassTable

/-- Nothing is declared above a class that bears the name of the root class. -/
def RootOnTop (table : ClassTable) : Prop :=
  ∀ (id : ClassId) (info : ClassInfo), table.get? id = some info → info.name = objectName →
    info.supertypes = []

/-- One step up among types. No step leads from or to a primitive type, so arrays of primitives
go up to the root class only. -/
inductive Widens (table : ClassTable) : (lower upper : JvmType) → Prop where
  | declared {lower upper : ClassId} (link : table.Extends lower upper) :
      Widens table (.ofClass lower) (.ofClass upper)
  | root (element : JvmType) {root : ClassId} (isRoot : table.isObject root = true) :
      Widens table (.arrayOf element) (.ofClass root)
  | elements {lower upper : JvmType} (step : Widens table lower upper) :
      Widens table (.arrayOf lower) (.arrayOf upper)

namespace Widens

variable {table : ClassTable} {lower upper : JvmType}

private theorem isReference_lower (step : table.Widens lower upper) : lower.isReference = true := by
  cases step <;> rfl

private theorem isReference_upper (step : table.Widens lower upper) : upper.isReference = true := by
  cases step <;> rfl

end Widens

section Paths

variable {table : ClassTable}

private theorem widens_of_below {lower upper : ClassId} (path : table.Below lower upper) :
    Relation.ReflTransGen table.Widens (.ofClass lower) (.ofClass upper) :=
  path.lift JvmType.ofClass fun _ _ link => .declared link

private theorem widens_elements {lower upper : JvmType}
    (path : Relation.ReflTransGen table.Widens lower upper) :
    Relation.ReflTransGen table.Widens (.arrayOf lower) (.arrayOf upper) :=
  path.lift JvmType.arrayOf fun _ _ step => .elements step

private theorem widens_of_isAssignable {lower upper : JvmType}
    (assignable : table.isAssignable lower upper = true) :
    Relation.ReflTransGen table.Widens lower upper := by
  induction lower generalizing upper with
  | primitive kind =>
    cases upper with
    | primitive other =>
      obtain rfl : kind = other := of_decide_eq_true assignable
      exact .refl
    | ofClass id => cases assignable
    | arrayOf element => cases assignable
  | ofClass id =>
    cases upper with
    | primitive kind => cases assignable
    | ofClass other => exact widens_of_below ((table.isSubclass_iff_below id other).mp assignable)
    | arrayOf element => cases assignable
  | arrayOf element ih =>
    cases upper with
    | primitive kind => cases assignable
    | ofClass root => exact .single (.root element assignable)
    | arrayOf other =>
      rcases isAssignable_arrayOf_iff.mp assignable with rfl | ⟨_, _, below⟩
      · exact .refl
      · exact widens_elements (ih below)

end Paths

namespace RootOnTop

variable {table : ClassTable}

private theorem not_extends (rootOnTop : table.RootOnTop) {root upper : ClassId}
    (isRoot : table.isObject root = true) : ¬ table.Extends root upper := by
  intro link
  obtain ⟨info, found, _⟩ := extends_cases link
  have named : info.name = objectName := by simpa [isObject, nameOf, found] using isRoot
  simp [Extends, supertypes, found, rootOnTop root info found named] at link

/-- What is assignable to a type is assignable to the type one step higher. -/
theorem isAssignable_step (rootOnTop : table.RootOnTop) {lower middle upper : JvmType}
    (below : table.isAssignable lower middle = true) (step : table.Widens middle upper) :
    table.isAssignable lower upper = true := by
  induction step generalizing lower with
  | @declared middle upper link =>
    cases lower with
    | primitive kind => cases below
    | ofClass id =>
      have path := (table.isSubclass_iff_below id middle).mp below
      exact (table.isSubclass_iff_below id upper).mpr (path.tail link)
    | arrayOf element => exact absurd link (rootOnTop.not_extends below)
  | @root element root isRoot =>
    cases lower with
    | primitive kind => cases below
    | ofClass id => cases below
    | arrayOf own => exact isRoot
  | elements step ih =>
    cases lower with
    | primitive kind => cases below
    | ofClass id => cases below
    | arrayOf own =>
      have upperReference := step.isReference_upper
      rcases isAssignable_arrayOf_iff.mp below with rfl | ⟨ownReference, _, elementsBelow⟩
      · exact isAssignable_arrayOf_iff.mpr
          (.inr ⟨step.isReference_lower, upperReference, ih (table.isAssignable_refl _)⟩)
      · exact isAssignable_arrayOf_iff.mpr (.inr ⟨ownReference, upperReference, ih elementsBelow⟩)

private theorem isAssignable_iff_widens (rootOnTop : table.RootOnTop) (lower upper : JvmType) :
    table.isAssignable lower upper = true ↔ Relation.ReflTransGen table.Widens lower upper := by
  constructor
  · exact widens_of_isAssignable
  · intro path
    induction path with
    | refl => exact table.isAssignable_refl lower
    | tail _ step ih => exact rootOnTop.isAssignable_step ih step

theorem isAssignable_trans (rootOnTop : table.RootOnTop) {lower middle upper : JvmType}
    (first : table.isAssignable lower middle = true)
    (second : table.isAssignable middle upper = true) : table.isAssignable lower upper = true :=
  (rootOnTop.isAssignable_iff_widens lower upper).mpr
    ((widens_of_isAssignable first).trans (widens_of_isAssignable second))

/-- With nothing above the root class, assignability is the smallest reflexive and transitive
relation that holds the single steps up. Without cycles it is a partial order. -/
theorem isAssignable_partialOrder (rootOnTop : table.RootOnTop) :
    (∀ lower upper, table.isAssignable lower upper = true ↔
      Relation.ReflTransGen table.Widens lower upper) ∧
    (∀ type, table.isAssignable type type = true) ∧
    (∀ lower middle upper, table.isAssignable lower middle = true →
      table.isAssignable middle upper = true → table.isAssignable lower upper = true) ∧
    (table.Acyclic → ∀ left right, table.isAssignable left right = true →
      table.isAssignable right left = true → left = right) :=
  ⟨rootOnTop.isAssignable_iff_widens, table.isAssignable_refl,
    fun _ _ _ first second => rootOnTop.isAssignable_trans first second,
    fun acyclic _ _ below above => acyclic.isAssignable_antisymm below above⟩

end RootOnTop

/-- The root class of the small hierarchy is above arrays of nodes and of their arrays, and there
is no way back. -/
theorem isAssignable_partialOrder_small :
    small.RootOnTop ∧ small.Acyclic ∧
      small.isAssignable (.arrayOf (.arrayOf (.ofClass ⟨2⟩))) (.arrayOf (.ofClass ⟨0⟩)) = true ∧
      small.isAssignable (.arrayOf (.arrayOf (.ofClass ⟨2⟩))) (.ofClass ⟨0⟩) = true ∧
      small.isAssignable (.ofClass ⟨0⟩) (.arrayOf (.arrayOf (.ofClass ⟨2⟩))) = false := by
  have rootOnTop : small.RootOnTop := fun _ _ => legal_small.ofObject
  have acyclic : small.Acyclic := legal_small.acyclic
  obtain ⟨generated, _, transitive, antisymmetric⟩ := rootOnTop.isAssignable_partialOrder
  have lower : small.isAssignable (.arrayOf (.arrayOf (.ofClass ⟨2⟩)))
      (.arrayOf (.ofClass ⟨0⟩)) = true :=
    (generated _ _).mpr (.single (.elements (.root _ rfl)))
  have upper : small.isAssignable (.arrayOf (.ofClass ⟨0⟩)) (.ofClass ⟨0⟩) = true :=
    (generated _ _).mpr (.single (.root _ rfl))
  have whole := transitive _ _ _ lower upper
  refine ⟨rootOnTop, acyclic, lower, whole, Bool.eq_false_iff.mpr fun back => ?_⟩
  exact absurd (antisymmetric acyclic _ _ whole back) JvmType.noConfusion

end PauseFlow.ClassTable
