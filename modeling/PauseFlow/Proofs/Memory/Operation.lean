import PauseFlow.Proofs.Memory.Satisfaction

/-! The operations on a memory and the memories they can reach. An operation that is told the
truth about a run succeeds, and the run still satisfies the memory. -/
namespace PauseFlow.Memory

/-- The constant of an operand, if it is one. -/
def operandConstants : Operand → List AbstractValue
  | .var _ => []
  | .constant value => [value]

/-- The sort of the values that an operand stands for. -/
def operandSort? (registry : Variables) : Operand → Option ValueSort
  | .var var => (registry.declared var).sort?
  | .constant value => value.sort?

/-- A variable and an operand are of one primitive kind or both references, and a constant comes
from the constructors. -/
structure Comparable (registry : Variables) (var : Var) (operand : Operand) : Prop where
  sorted : ∃ sort, (registry.declared var).sort? = some sort ∧
    operandSort? registry operand = some sort
  constructed : ∀ value ∈ operandConstants operand, value.Constructed

/-- What can be done with a memory. -/
inductive Operation where
  | assume (condition : Condition)
  | unite (left right : Var)
  | narrow (var : Var) (value : AbstractValue)
  | forget (var : Var)
deriving DecidableEq

namespace Operation

def run (registry : Variables) (memory : Memory) : Operation → Bool × Memory
  | assume condition => memory.assume registry condition
  | unite left right => memory.unite registry left right
  | narrow var value => memory.narrow registry var value
  | forget var => (true, memory.forget registry var)

/-- The constants that an operation mentions. -/
def constants : Operation → List AbstractValue
  | assume condition => operandConstants condition.right
  | unite _ _ => []
  | narrow _ value => [value]
  | forget _ => []

def WellTyped (registry : Variables) : Operation → Prop
  | assume condition => Comparable registry condition.left condition.right
  | unite left right => Comparable registry left (.var right)
  | narrow var value => Comparable registry var (.constant value)
  | forget _ => True

/-- What must be true of a run for an operation to say the truth. A forgotten variable and what
hangs off it get any values of their declarations, other values stay. -/
def Allows {table : ClassTable} (world : World table) (registry : Variables)
    (env later : Environment) : Operation → Prop
  | assume condition => later = env ∧ condition.Holds world env
  | unite left right => later = env ∧ env left = env right
  | narrow var value => later = env ∧ value.Contains world (env var)
  | forget var => Changes world registry (registry.Within · var) env later

end Operation

/-- The memories that operations reach while variables are requested. Declarations are of the
allowed form and constants come from the constructors. -/
inductive Reachable (allowed : AbstractValue → Prop) : Variables → Memory → Prop where
  | start (table : ClassTable) : Reachable allowed (.ofTable table) .empty
  | request {registry : Variables} {memory : Memory} {origin : Origin} {declared : AbstractValue}
      (reached : Reachable allowed registry memory) (form : allowed declared)
      (issued : ∀ qualifier, origin.qualifier? = some qualifier → registry.Issued qualifier) :
      Reachable allowed (registry.request origin declared).1 memory
  | operate {registry : Variables} {memory : Memory} (reached : Reachable allowed registry memory)
      (operation : Operation) (constructed : ∀ value ∈ operation.constants, value.Constructed) :
      Reachable allowed registry (operation.run registry memory).2

theorem WellFormed.run {memory : Memory} (wellFormed : WellFormed memory) (registry : Variables)
    (operation : Operation) : WellFormed (operation.run registry memory).2 := by
  cases operation with
  | assume condition => exact wellFormed.assume condition
  | unite left right => exact wellFormed.unite left right
  | narrow var value => exact wellFormed.narrow var value
  | forget var => exact wellFormed.forget registry var

section Reaching

variable {allowed : AbstractValue → Prop} {registry : Variables} {memory : Memory}

theorem Reachable.wellFormed (reached : Reachable allowed registry memory) :
    WellFormed memory := by
  induction reached with
  | start table => exact wellFormed_empty
  | request _ _ _ ih => exact ih
  | operate _ operation _ ih => exact ih.run _ operation

theorem Reachable.built (reached : Reachable allowed registry memory) :
    registry.Built allowed := by
  induction reached with
  | start table => exact .ofTable table
  | request _ form issued ih => exact ih.request form issued
  | operate _ _ _ ih => exact ih

end Reaching

/-- Two references, the second one a field of the first. -/
def cells : Variables where
  table := .small
  infos := [⟨.localName "cell", .ofType (.ofClass ⟨2⟩)⟩,
    ⟨.field ⟨0⟩ "next", .ofType (.ofClass ⟨2⟩)⟩]

def cellWorld : World cells.table := World.ofType (.ofClass ⟨2⟩) ⟨_, rfl, rfl⟩

theorem reachable_cells {allowed : AbstractValue → Prop}
    (form : allowed (.ofType (.ofClass ⟨2⟩))) : Reachable allowed cells .empty := by
  have first : Reachable allowed ((Variables.ofTable .small).request (.localName "cell")
      (.ofType (.ofClass ⟨2⟩))).1 .empty :=
    (Reachable.start .small).request form (by simp [Origin.qualifier?])
  have second : ∀ qualifier, (Origin.field ⟨0⟩ "next").qualifier? = some qualifier →
      ((Variables.ofTable .small).request (.localName "cell")
        (.ofType (.ofClass ⟨2⟩))).1.Issued qualifier := by
    intro qualifier same
    cases same
    exact Nat.zero_lt_one
  exact first.request form second

theorem declared_cells (var : Var) (id : Nat) :
    (cells.declared var).Contains cellWorld (.object id) := by
  have node : (AbstractValue.ofType (.ofClass ⟨2⟩)).Contains cellWorld (.object id) :=
    ⟨by simp, ClassTable.isAssignable_refl _ _, by simp⟩
  match var with
  | ⟨0⟩ => exact node
  | ⟨1⟩ => exact node
  | ⟨_ + 2⟩ => exact AbstractValue.contains_top _

section Soundness

variable {registry : Variables} {memory : Memory} {env : Environment}

/-- A variable that has a sort is issued, so it was declared with a type that is not one of
numbers. -/
theorem isFloating_of_sort (built : registry.Built AbstractValue.Discrete) {var : Var}
    {sort : ValueSort} (sorted : (registry.declared var).sort? = some sort) :
    sort.isFloating = false := by
  have issued : registry.Issued var := by
    by_contra missing
    rw [Variables.declared_of_not_issued missing] at sorted
    cases sorted
  obtain ⟨type, discrete, same⟩ := built.allowed issued
  rw [same, AbstractValue.sort?_ofType, Option.some.injEq] at sorted
  rwa [← sorted]

theorem Satisfies.assume_comparable {table : ClassTable} (legal : table.Legal)
    (sameTable : registry.table = table) (built : registry.Built AbstractValue.Discrete)
    {world : World table} (satisfied : Satisfies world registry memory env)
    (wellFormed : WellFormed memory) {condition : Condition}
    (typed : Comparable registry condition.left condition.right)
    (holds : condition.Holds world env) :
    Accepts world registry env (memory.assume registry condition) := by
  obtain ⟨sort, leftSort, rightSort⟩ := typed.sorted
  have own := AbstractValue.sort_of_contains leftSort (satisfied.declared condition.left)
  refine satisfied.assume legal sameTable wellFormed ?_ (fun value constant => ?_) holds
  · rw [own]
    exact isFloating_of_sort built leftSort
  · rw [constant] at rightSort
    have constructed := typed.constructed value (by simp [constant, operandConstants])
    exact ⟨constructed.regular, rightSort.trans (congrArg some own.symm)⟩

/-- Soundness of every operation: on a memory that a run satisfies, an operation that says the
truth succeeds and leaves a memory that the run satisfies afterwards. An operation that fails
has contradicted the run. -/
theorem Reachable.operation_sound (legal : registry.table.Legal)
    (reached : Reachable AbstractValue.Discrete registry memory) {world : World registry.table}
    (satisfied : Satisfies world registry memory env) {operation : Operation}
    (typed : operation.WellTyped registry) :
    (∀ later, operation.Allows world registry env later →
      Accepts world registry later (operation.run registry memory)) ∧
    ((operation.run registry memory).1 = false →
      ∀ later, ¬ operation.Allows world registry env later) := by
  have accepts : ∀ later, operation.Allows world registry env later →
      Accepts world registry later (operation.run registry memory) := by
    intro later allows
    cases operation with
    | assume condition =>
      obtain ⟨rfl, holds⟩ := allows
      exact satisfied.assume_comparable legal rfl reached.built reached.wellFormed typed holds
    | unite left right =>
      obtain ⟨rfl, same⟩ := allows
      exact satisfied.unite legal rfl reached.wellFormed same
    | narrow var value =>
      obtain ⟨rfl, holds⟩ := allows
      exact satisfied.narrow legal rfl holds
    | forget var =>
      have forgets := forgets_forget reached.wellFormed reached.built.ordered var
      exact ⟨rfl, satisfied.forgets forgets allows⟩
  refine ⟨accepts, fun failed later allows => ?_⟩
  have succeeded := (accepts later allows).1
  rw [failed] at succeeded
  cases succeeded

theorem operation_sound_of_different_cells :
    Accepts cellWorld cells (fun var => .object var.index)
      ((Operation.assume ⟨⟨0⟩, .different, .var ⟨1⟩⟩).run cells .empty) := by
  have typed : (Operation.assume ⟨⟨0⟩, .different, .var ⟨1⟩⟩).WellTyped cells :=
    ⟨⟨.reference, rfl, rfl⟩, by simp [operandConstants]⟩
  have sound := Reachable.operation_sound ClassTable.legal_small
    (reachable_cells ⟨.ofClass ⟨2⟩, rfl, rfl⟩)
    (satisfies_empty fun var => declared_cells var var.index) typed
  refine sound.1 _ ⟨rfl, fun same => ?_⟩
  cases same

end Soundness

end PauseFlow.Memory
