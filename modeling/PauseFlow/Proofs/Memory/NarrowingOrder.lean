import PauseFlow.Proofs.Abstract.Bracketing
import PauseFlow.Proofs.Memory.Declarations
import PauseFlow.Proofs.Memory.Refusal

/-! Narrowing one variable to several values. The last meet decides, so the order of the values
matters only where a meet has lost one of two bounds that cross. -/
namespace PauseFlow

namespace Memory

variable {registry : Variables} {memory : Memory} {var : Var}

/-- Without exclusions, narrowings are accepted as long as the meet of all values is possible. -/
theorem isSome_insist_narrow_iff (unrestricted : memory.exclusions (memory.root var) = [])
    (possible : memory.value registry var ≠ .bottom) (values : List AbstractValue) :
    (insist registry memory (values.map (Operation.narrow var))).isSome = true ↔
      values.foldl (AbstractValue.meet registry.table) (memory.value registry var) ≠ .bottom := by
  induction values generalizing memory with
  | nil => exact iff_of_true rfl possible
  | cons first rest ih =>
    rw [List.map_cons, List.foldl_cons, insist, Operation.run]
    rcases narrow_cases memory registry var first with ⟨clash, result⟩ | ⟨fits, _, result⟩
    · have empty : memory.narrowed registry var first = .bottom := by
        refine clash.resolve_right fun excluded => ?_
        rw [isExcluded, unrestricted] at excluded
        simp at excluded
      rw [result, ← Memory.narrowed, empty, AbstractValue.foldl_meet_bottom]
      exact iff_of_false Bool.false_ne_true fun impossible => impossible rfl
    · rw [result]
      have known : (memory.withFact (memory.root var) (memory.narrowed registry var first)).value
          registry var = memory.narrowed registry var first := by
        rw [value_withFact, if_pos rfl]
      have later := @ih (memory.withFact (memory.root var) (memory.narrowed registry var first))
        unrestricted (by rwa [known])
      rwa [known] at later

/-- Whether a variable can be narrowed to several values, one after the other, does not depend on
their order where no meet loses a contradiction. For three values that is exactly the case if
brackets never matter. -/
theorem narrow_permuted (legal : registry.table.Legal) {type : JvmType}
    (declared : registry.declared var = .ofType type) {values : List AbstractValue}
    (constructed : ∀ value ∈ values, value.Constructed ∧ value.bound ≠ .bottom)
    (steady : AbstractValue.Steady registry.table (.ofType type :: values)) :
    (∀ permuted, values.Perm permuted →
      ((insist registry .empty (values.map (Operation.narrow var))).isSome = true ↔
        (insist registry .empty (permuted.map (Operation.narrow var))).isSome = true)) ∧
    ∀ first second third : AbstractValue,
      (∀ value ∈ [first, second, third], value.Constructed ∧ value.bound ≠ .bottom) →
      (AbstractValue.Steady registry.table [first, second, third] ↔
        ∀ left right other : AbstractValue, [first, second, third].Perm [left, right, other] →
          ((left.meet registry.table right).meet registry.table other = .bottom ↔
            left.meet registry.table (right.meet registry.table other) = .bottom)) := by
  refine ⟨fun permuted perm => ?_, fun first second third constructed =>
    AbstractValue.steady_iff_assoc constructed legal⟩
  have known : Memory.empty.value registry var = .ofType type := declared
  have possible : Memory.empty.value registry var ≠ .bottom := by
    rw [known]
    cases type <;> exact nofun
  have typed : ∀ value ∈ AbstractValue.ofType type :: values,
      ∃ sort, AbstractValue.Typed sort value :=
    List.forall_mem_cons.mpr ⟨⟨type.sort, AbstractValue.typed_ofType type⟩,
      fun value member => (constructed value member).1.typed (constructed value member).2⟩
  rw [isSome_insist_narrow_iff rfl possible, isSome_insist_narrow_iff rfl possible, known]
  exact AbstractValue.foldl_ne_bottom_of_perm legal typed steady (perm.cons _)

/-- A walker, and an object of one class. -/
def walkerAndInstance (owner : ClassId) : List AbstractValue :=
  [.notNull (.instanceOf (.ofClass ⟨3⟩)), .notNull (.exact (.ofClass owner))]

private theorem constructed_walkerAndInstance (owner : ClassId) :
    ∀ value ∈ walkerAndInstance owner, value.Constructed ∧ value.bound ≠ .bottom :=
  List.forall_mem_cons.mpr
    ⟨⟨.notNull _, nofun⟩, List.forall_mem_cons.mpr ⟨⟨.notNull _, nofun⟩, nofun⟩⟩

/-- A node that is a walker is still known as a node and can be narrowed to a plain node, but a
plain node cannot be narrowed to a walker. -/
theorem narrow_order_matters :
    nodeAndWalker.table.Legal ∧ nodeAndWalker.declared ⟨0⟩ = .ofType (.ofClass ⟨2⟩) ∧
      (∀ value ∈ walkerAndInstance ⟨2⟩, value.Constructed ∧ value.bound ≠ .bottom) ∧
      (walkerAndInstance ⟨2⟩).Perm (walkerAndInstance ⟨2⟩).reverse ∧
      (insist nodeAndWalker .empty
        ((walkerAndInstance ⟨2⟩).map (Operation.narrow ⟨0⟩))).isSome = true ∧
      (insist nodeAndWalker .empty
        ((walkerAndInstance ⟨2⟩).reverse.map (Operation.narrow ⟨0⟩))).isSome = false :=
  ⟨ClassTable.legal_smallWithInterface, rfl, constructed_walkerAndInstance ⟨2⟩,
    (List.reverse_perm _).symm, by decide, by decide⟩

/-- A string is neither a node nor a walker, so it is refused before and after the walker. -/
theorem narrow_permuted_string :
    ((insist nodeAndWalker .empty
        ((walkerAndInstance ⟨1⟩).map (Operation.narrow ⟨0⟩))).isSome = true ↔
      (insist nodeAndWalker .empty
        ((walkerAndInstance ⟨1⟩).reverse.map (Operation.narrow ⟨0⟩))).isSome = true) := by
  have declared : nodeAndWalker.declared ⟨0⟩ = .ofType (.ofClass ⟨2⟩) := rfl
  have steady : AbstractValue.Steady nodeAndWalker.table
      (.ofType (.ofClass ⟨2⟩) :: walkerAndInstance ⟨1⟩) := .inr (by decide)
  exact (narrow_permuted ClassTable.legal_smallWithInterface declared
    (constructed_walkerAndInstance ⟨1⟩) steady).1 _ (List.reverse_perm _).symm

end Memory

end PauseFlow
