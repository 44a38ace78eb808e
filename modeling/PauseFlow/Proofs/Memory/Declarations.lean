import PauseFlow.Proofs.Abstract.Refinement
import PauseFlow.Proofs.Hierarchy.OpenWorld
import PauseFlow.Proofs.Memory.Merging
import PauseFlow.Proofs.Memory.Typing

/-! What is known of a variable against what it is declared with. Only joining two classes can
lose a declaration, and only that of the members of the second class. -/
namespace PauseFlow.Memory

/-- Nothing that is known of a variable allows what its declaration excludes. -/
def WithinDeclarations (registry : Variables) (memory : Memory) : Prop :=
  ∀ var, (memory.value registry var).Refines registry.table (registry.declared var)

namespace Operation

/-- The variables whose classes an operation joins. -/
def joins? : Operation → Option (Var × Var)
  | unite left right => some (left, right)
  | assume ⟨left, .equal, .var right⟩ => some (left, right)
  | _ => none

/-- If the operation joins two classes, what is known of both is within the declarations of the
second one. -/
def Spares (registry : Variables) (memory : Memory) (operation : Operation) : Prop :=
  ∀ left right, operation.joins? = some (left, right) →
    (operation.run registry memory).1 = true → ∀ var, memory.areEqual var right = true →
      (memory.overlap registry left right).Refines registry.table (registry.declared var)

private theorem spares_iff {registry : Variables} {memory : Memory} {operation : Operation}
    {left right : Var} (joins : operation.joins? = some (left, right)) :
    operation.Spares registry memory ↔
      ((operation.run registry memory).1 = true → ∀ var, memory.areEqual var right = true →
        (memory.overlap registry left right).Refines registry.table (registry.declared var)) := by
  refine ⟨fun spares => spares left right joins, fun spares first second joined => ?_⟩
  obtain ⟨rfl, rfl⟩ := Prod.mk.inj (Option.some.inj (joins.symm.trans joined))
  exact spares

private theorem spares_of_joins_none {registry : Variables} {memory : Memory}
    {operation : Operation}
    (none : operation.joins? = none) : operation.Spares registry memory := by
  intro left right joins
  rw [none] at joins
  cases joins

/-- The operation joins no two classes whose bounds cross. -/
def Uncrossed (registry : Variables) (memory : Memory) (operation : Operation) : Prop :=
  ∀ left right, operation.joins? = some (left, right) →
    (memory.value registry left).bound.crosses registry.table
      (memory.value registry right).bound = false

end Operation

/-- The memories that operations build which spare all declarations, while variables are added. -/
inductive ArisesSparing : Variables → Memory → Prop where
  | start (registry : Variables) : ArisesSparing registry .empty
  | grow {old new : Variables} {memory : Memory} (arises : ArisesSparing old memory)
      (grows : old.Grows new) : ArisesSparing new memory
  | operate {registry : Variables} {memory : Memory} (arises : ArisesSparing registry memory)
      (operation : Operation) (issued : ∀ var ∈ operation.operands, registry.Issued var)
      (spares : operation.Spares registry memory) :
      ArisesSparing registry (operation.run registry memory).2

variable {registry : Variables} {memory : Memory}

private theorem ArisesSparing.arises (arises : ArisesSparing registry memory) :
    Arises registry memory := by
  induction arises with
  | start registry => exact .start registry
  | grow _ grows ih => exact ih.grow grows
  | operate _ operation issued _ ih => exact ih.operate operation issued

namespace WithinDeclarations

private theorem empty (registry : Variables) : WithinDeclarations registry .empty :=
  fun var => .refl registry.table (registry.declared var)

/-- Nothing is known of a variable before it is issued. -/
theorem grow {old new : Variables} (within : WithinDeclarations old memory)
    (arises : Arises old memory) (grows : old.Grows new) : WithinDeclarations new memory := by
  intro var
  rw [grows.table]
  by_cases issued : old.Issued var
  · rw [grows.declared issued, arises.wellFormed.value_of_grows grows issued]
    exact within var
  · rw [arises.informed.value_of_not_issued arises.settled issued]
    exact .refl old.table _

private theorem narrow (legal : registry.table.Legal) (within : WithinDeclarations registry memory)
    (var : Var) (value : AbstractValue) :
    WithinDeclarations registry (memory.narrow registry var value).2 := by
  rcases narrow_cases memory registry var value with ⟨_, result⟩ | ⟨_, _, result⟩
  · rw [result]
    exact within
  · rw [result]
    intro other
    rw [value_withFact]
    split
    · rename_i same
      have known := within other
      rw [value_eq_of_areEqual ((areEqual_iff memory other var).mpr same)] at known
      exact (AbstractValue.meet_refines_left legal _ value).trans known
    · exact within other

private theorem separate (within : WithinDeclarations registry memory) (left right : Var) :
    WithinDeclarations registry (memory.separate registry left right).2 := by
  rcases separate_cases memory registry left right with ⟨_, result⟩ | ⟨_, result⟩
  · rw [result]
    exact within
  · rw [result]
    exact within

private theorem exclude (legal : registry.table.Legal) (within : WithinDeclarations registry memory)
    (var : Var) (value : AbstractValue) :
    WithinDeclarations registry (memory.exclude registry var value).2 := by
  rcases exclude_cases memory registry var value with
    ⟨_, result⟩ | ⟨other, _, result⟩ | ⟨_, _, _, result⟩ | result
  · rw [result]
    exact within
  · rw [result]
    exact within.narrow legal var other
  · rw [result]
    exact within
  · rw [result]
    exact within

private theorem forget (within : WithinDeclarations registry memory)
    (wellFormed : WellFormed memory)
    (var : Var) : WithinDeclarations registry (memory.forget registry var) := by
  intro other
  have forgets := forgets_invalidatedBy wellFormed registry var
  by_cases lost : other ∈ registry.invalidatedBy var
  · rw [forgets.lostValue lost]
    exact .refl registry.table _
  · rw [forgets.value lost]
    exact within other

/-- The members of the first class keep their declarations, so a merge keeps all of them exactly
when it keeps those of the second class. -/
theorem unite_iff (legal : registry.table.Legal) (within : WithinDeclarations registry memory)
    (wellFormed : WellFormed memory) (left right : Var) :
    WithinDeclarations registry (memory.unite registry left right).2 ↔
      ((memory.unite registry left right).1 = true → ∀ var, memory.areEqual var right = true →
        (memory.overlap registry left right).Refines registry.table (registry.declared var)) := by
  have known_left : ∀ var, memory.areEqual var left = true →
      (memory.overlap registry left right).Refines registry.table (registry.declared var) := by
    intro var inLeft
    refine (AbstractValue.meet_refines_left legal _ _).trans ?_
    rw [← value_eq_of_areEqual inLeft]
    exact within var
  rcases unite_cases memory registry left right with
    ⟨same, result⟩ | ⟨_, _, result⟩ | ⟨different, unrelated, _, _, _, result⟩
  · rw [result]
    refine ⟨fun _ _ var inRight => known_left var ?_, fun _ => within⟩
    exact areEqual_trans inRight ((areEqual_iff memory right left).mpr same.symm)
  · rw [result]
    exact ⟨fun _ => nofun, fun _ => within⟩
  · rw [result]
    have merges := merges_merged wellFormed registry different unrelated
    have value_new := merges.value (mt (areEqual_iff memory left right).mp different)
    constructor
    · intro after _ var inRight
      have inClass := (merges.equal var left).mpr
        (.inr (.inr ⟨inRight, areEqual_refl memory left⟩))
      have known := after var
      rwa [value_new var inClass] at known
    · intro spared var
      by_cases inClass : (memory.merged (memory.root left) (memory.root right)
          (memory.overlap registry left right)).areEqual var left = true
      · rw [value_new var inClass]
        rcases (merges.equal var left).mp inClass with inLeft | ⟨inLeft, _⟩ | ⟨inRight, _⟩
        · exact known_left var inLeft
        · exact known_left var inLeft
        · exact spared rfl var inRight
      · rw [merges.otherValue var inClass]
        exact within var

/-- Where bounds do not cross, a merge keeps the declarations of the second class as well. -/
theorem overlap_of_uncrossed (legal : registry.table.Legal)
    (within : WithinDeclarations registry memory) {left right var : Var}
    (uncrossed : (memory.value registry left).bound.crosses registry.table
      (memory.value registry right).bound = false)
    (inRight : memory.areEqual var right = true) :
    (memory.overlap registry left right).Refines registry.table (registry.declared var) := by
  refine (AbstractValue.meet_refines_right legal uncrossed).trans ?_
  rw [← value_eq_of_areEqual inRight]
  exact within var

private theorem assumeFloating (legal : registry.table.Legal)
    (within : WithinDeclarations registry memory) (condition : Condition) :
    WithinDeclarations registry (memory.assumeFloating registry condition).2 := by
  rcases assumeFloating_cases memory registry condition with
    ⟨_, result⟩ | ⟨value, _, result⟩ | ⟨value, _, result⟩
  · rw [result]
    exact within
  · rw [result]
    exact within.narrow legal condition.left value
  · rw [result]
    exact within.exclude legal condition.left value

private theorem assume_iff (legal : registry.table.Legal)
    (within : WithinDeclarations registry memory)
    (wellFormed : WellFormed memory) (condition : Condition) :
    WithinDeclarations registry (memory.assume registry condition).2 ↔
      (Operation.assume condition).Spares registry memory := by
  obtain ⟨left, relation, right⟩ := condition
  by_cases floating : (memory.value registry left).isFloating = true
  · have result : memory.assume registry ⟨left, relation, right⟩ =
        memory.assumeFloating registry ⟨left, relation, right⟩ := if_pos floating
    -- A comparison of numbers joins nothing, and the bounds of numbers cross no others.
    refine iff_of_true (result ▸ within.assumeFloating legal _) fun first second joins _ var => ?_
    have same : first = left := by
      cases relation <;> cases right <;> cases joins
      rfl
    refine within.overlap_of_uncrossed legal ?_
    rw [same]
    cases known : memory.value registry left <;> rw [known] at floating <;> first
      | rfl
      | cases floating
  · cases right with
    | var other =>
      cases relation with
      | equal =>
        have result : memory.assume registry ⟨left, .equal, .var other⟩ =
            memory.unite registry left other := if_neg floating
        rw [Operation.spares_iff rfl, Operation.run, result]
        exact within.unite_iff legal wellFormed left other
      | different =>
        have result : memory.assume registry ⟨left, .different, .var other⟩ =
            memory.separate registry left other := if_neg floating
        rw [result]
        exact iff_of_true (within.separate left other) (Operation.spares_of_joins_none rfl)
    | constant value =>
      cases relation with
      | equal =>
        have result : memory.assume registry ⟨left, .equal, .constant value⟩ =
            memory.narrow registry left value := if_neg floating
        rw [result]
        exact iff_of_true (within.narrow legal left value) (Operation.spares_of_joins_none rfl)
      | different =>
        have result : memory.assume registry ⟨left, .different, .constant value⟩ =
            memory.exclude registry left value := if_neg floating
        rw [result]
        exact iff_of_true (within.exclude legal left value)
          (Operation.spares_of_joins_none rfl)

/-- An operation leaves what is known within the declarations exactly when it spares them. -/
theorem run_iff (legal : registry.table.Legal) (within : WithinDeclarations registry memory)
    (wellFormed : WellFormed memory) (operation : Operation) :
    WithinDeclarations registry (operation.run registry memory).2 ↔
      operation.Spares registry memory := by
  cases operation with
  | assume condition => exact within.assume_iff legal wellFormed condition
  | unite left right =>
    rw [Operation.spares_iff rfl, Operation.run]
    exact within.unite_iff legal wellFormed left right
  | narrow var value =>
    exact iff_of_true (within.narrow legal var value) (Operation.spares_of_joins_none rfl)
  | forget var =>
    exact iff_of_true (within.forget wellFormed var) (Operation.spares_of_joins_none rfl)

end WithinDeclarations

/-- What is known stays within the declarations as long as operations spare them, and the first
operation that does not spare them leads out. Joining classes whose bounds do not cross spares
them. -/
theorem ArisesSparing.within_declarations (legal : registry.table.Legal)
    (arises : ArisesSparing registry memory) :
    WithinDeclarations registry memory ∧ ∀ operation : Operation,
      (WithinDeclarations registry (operation.run registry memory).2 ↔
        operation.Spares registry memory) ∧
      (operation.Uncrossed registry memory → operation.Spares registry memory) := by
  have within : WithinDeclarations registry memory := by
    induction arises with
    | start registry => exact .empty registry
    | grow arises grows ih =>
      exact (ih (grows.table ▸ legal)).grow arises.arises grows
    | operate arises operation _ spares ih =>
      exact ((ih legal).run_iff legal arises.arises.wellFormed operation).mpr spares
  refine ⟨within, fun operation =>
    ⟨within.run_iff legal arises.arises.wellFormed operation, ?_⟩⟩
  exact fun uncrossed left right joins _ var inRight =>
    within.overlap_of_uncrossed legal (uncrossed left right joins) inRight

/-- A node and something of an interface that nodes do not implement, but their subclasses may. -/
def nodeAndWalker : Variables where
  table := .smallWithInterface
  infos := [⟨.localName "node", .ofType (.ofClass ⟨2⟩)⟩,
    ⟨.localName "walker", .ofType (.ofClass ⟨3⟩)⟩]

/-- A program whose only objects are plain nodes. -/
def plainNodes : World nodeAndWalker.table := World.ofType (.ofClass ⟨2⟩) ⟨_, rfl, rfl⟩

/-- Once the walker is said to be the node, it may be a plain node as far as is known. -/
theorem declaration_lost :
    ¬ WithinDeclarations nodeAndWalker
      ((Operation.unite ⟨0⟩ ⟨1⟩).run nodeAndWalker .empty).2 := by
  have step := (ArisesSparing.within_declarations ClassTable.legal_smallWithInterface
    (.start nodeAndWalker)).2 (.unite ⟨0⟩ ⟨1⟩)
  rw [step.1, Operation.spares_iff rfl]
  intro spared
  have kept : Memory.empty.overlap nodeAndWalker ⟨0⟩ ⟨1⟩ = .ofType (.ofClass ⟨2⟩) := by decide
  have plain : (AbstractValue.ofType (.ofClass ⟨2⟩)).Contains plainNodes (.object 0) :=
    ⟨by simp, ClassTable.isAssignable_refl _ _, by simp⟩
  have walks := spared (by decide) ⟨1⟩ (by decide) plainNodes (.object 0) (kept ▸ plain)
  have below : ClassTable.smallWithInterface.isAssignable (.ofClass ⟨2⟩) (.ofClass ⟨3⟩) = true :=
    walks.2.1
  exact absurd below (by decide)

end PauseFlow.Memory
