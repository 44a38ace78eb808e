import PauseFlow.Proofs.Memory.Coherence

/-! The elementary changes that all operations on a memory are made of. What every change keeps,
every memory that operations build satisfies. -/
namespace PauseFlow.Memory

/-- One change of a memory, with what an operation has checked before it. -/
inductive Change (registry : Variables) (memory : Memory) : Memory → Prop where
  | narrow {var : Var} {value : AbstractValue} (issued : registry.Issued var)
      (possible : memory.narrowed registry var value ≠ .bottom)
      (free : memory.isExcluded (memory.root var) (memory.narrowed registry var value) = false) :
      Change registry memory
        (memory.withFact (memory.root var) (memory.narrowed registry var value))
  | merge {left right : Var} (leftIssued : registry.Issued left)
      (rightIssued : registry.Issued right) (different : memory.root left ≠ memory.root right)
      (unrelated : ¬ memory.Apart (memory.root left) (memory.root right))
      (possible : memory.overlap registry left right ≠ .bottom)
      (freeLeft : memory.isExcluded (memory.root left) (memory.overlap registry left right) = false)
      (freeRight :
        memory.isExcluded (memory.root right) (memory.overlap registry left right) = false) :
      Change registry memory (memory.merged (memory.root left) (memory.root right)
        (memory.overlap registry left right))
  | separate {left right : Var} (different : memory.root left ≠ memory.root right) :
      Change registry memory (memory.withApart (memory.root left) (memory.root right))
  | exclude {var : Var} {value : AbstractValue} (issued : registry.Issued var)
      (plain : complement? value = none) (different : memory.value registry var ≠ value) :
      Change registry memory (memory.withExclusion (memory.root var) value)
  | detach (var : Var) : Change registry memory (memory.detach var)

/-- Any number of changes, one after the other. -/
def Evolves (registry : Variables) : Memory → Memory → Prop :=
  Relation.ReflTransGen (Change registry)

section Operations

variable {registry : Variables}

private theorem Change.evolves {memory after : Memory} (change : Change registry memory after) :
    Evolves registry memory after :=
  .single change

private theorem evolves_narrow (memory : Memory) {var : Var} (issued : registry.Issued var)
    (value : AbstractValue) : Evolves registry memory (memory.narrow registry var value).2 := by
  rcases narrow_cases memory registry var value with ⟨_, result⟩ | ⟨possible, free, result⟩
  · rw [result]
    exact .refl
  · rw [result]
    exact (Change.narrow issued possible free).evolves

private theorem evolves_unite (memory : Memory) {left right : Var}
    (leftIssued : registry.Issued left) (rightIssued : registry.Issued right) :
    Evolves registry memory (memory.unite registry left right).2 := by
  rcases unite_cases memory registry left right with ⟨_, result⟩ | ⟨_, _, result⟩ |
    ⟨different, unrelated, possible, freeLeft, freeRight, result⟩
  · rw [result]
    exact .refl
  · rw [result]
    exact .refl
  · rw [result]
    exact (Change.merge leftIssued rightIssued different unrelated possible freeLeft
      freeRight).evolves

private theorem evolves_separate (memory : Memory) (left right : Var) :
    Evolves registry memory (memory.separate registry left right).2 := by
  rcases separate_cases memory registry left right with ⟨_, result⟩ | ⟨different, result⟩
  · rw [result]
    exact .refl
  · rw [result]
    exact (Change.separate different).evolves

private theorem evolves_exclude (memory : Memory) {var : Var} (issued : registry.Issued var)
    (value : AbstractValue) : Evolves registry memory (memory.exclude registry var value).2 := by
  rcases exclude_cases memory registry var value with
    ⟨_, result⟩ | ⟨other, _, result⟩ | ⟨plain, _, different, result⟩ | result
  · rw [result]
    exact .refl
  · rw [result]
    exact evolves_narrow memory issued other
  · rw [result]
    exact (Change.exclude issued plain different).evolves
  · rw [result]
    exact .refl

private theorem evolves_assume (memory : Memory) (condition : Condition)
    (issued : ∀ var ∈ (Operation.assume condition).operands, registry.Issued var) :
    Evolves registry memory (memory.assume registry condition).2 := by
  obtain ⟨left, relation, right⟩ := condition
  have leftIssued : registry.Issued left := issued left List.mem_cons_self
  unfold Memory.assume
  split
  · rcases assumeFloating_cases memory registry ⟨left, relation, right⟩ with
      ⟨_, result⟩ | ⟨value, _, result⟩ | ⟨value, _, result⟩
    · rw [result]
      exact .refl
    · rw [result]
      exact evolves_narrow memory leftIssued value
    · rw [result]
      exact evolves_exclude memory leftIssued value
  · cases right with
    | var other =>
      have otherIssued : registry.Issued other :=
        issued other (List.mem_cons_of_mem _ List.mem_cons_self)
      cases relation with
      | equal => exact evolves_unite memory leftIssued otherIssued
      | different => exact evolves_separate memory left other
    | constant value =>
      cases relation with
      | equal => exact evolves_narrow memory leftIssued value
      | different => exact evolves_exclude memory leftIssued value

private theorem evolves_forget (memory : Memory) (var : Var) :
    Evolves registry memory (memory.forget registry var) := by
  unfold Memory.forget
  generalize registry.invalidatedBy var = lost
  induction lost generalizing memory with
  | nil => exact .refl
  | cons first rest ih => exact .head (Change.detach first) (ih (memory.detach first))

private theorem evolves_run (memory : Memory) (operation : Operation)
    (issued : ∀ var ∈ operation.operands, registry.Issued var) :
    Evolves registry memory (operation.run registry memory).2 := by
  cases operation with
  | assume condition => exact evolves_assume memory condition issued
  | unite left right =>
    exact evolves_unite memory (issued left (by simp [Operation.operands]))
      (issued right (by simp [Operation.operands]))
  | narrow var value =>
    exact evolves_narrow memory (issued var (by simp [Operation.operands])) value
  | forget var => exact evolves_forget memory var

end Operations

section Invariants

variable {registry : Variables} {memory after : Memory}

private theorem Change.wellFormed (change : Change registry memory after)
    (wellFormed : WellFormed memory) : WellFormed after := by
  cases change with
  | narrow _ possible _ => exact wellFormed.insertFact (root_top wellFormed.grounded _) possible
  | merge _ _ different unrelated possible _ _ =>
    exact wellFormed.merged different (root_top wellFormed.grounded _)
      (root_top wellFormed.grounded _) unrelated possible
  | separate different =>
    exact wellFormed.insertApart different (root_top wellFormed.grounded _)
      (root_top wellFormed.grounded _)
  | exclude _ _ _ => exact wellFormed.insertExcluded (root_top wellFormed.grounded _)
  | detach var => exact wellFormed.detach var

private theorem Change.settled (change : Change registry memory after)
    (wellFormed : WellFormed memory)
    (settled : Settled registry memory) : Settled registry after := by
  cases change with
  | narrow _ _ free => exact settled.withFact free
  | merge leftIssued rightIssued different _ _ freeLeft freeRight =>
    exact settled.merged wellFormed different (root_top wellFormed.grounded _)
      (root_top wellFormed.grounded _) (settled.issued_root leftIssued)
      (settled.issued_root rightIssued) freeLeft freeRight
  | separate _ => exact settled.withApart _ _
  | exclude issued _ different => exact settled.withExclusion issued different
  | detach var => exact settled.detach wellFormed var

private theorem Evolves.keep {kept : Memory → Prop} (evolves : Evolves registry memory after)
    (step : ∀ {old new}, Change registry old new → WellFormed old → Settled registry old →
      kept old → kept new)
    (wellFormed : WellFormed memory) (settled : Settled registry memory) (start : kept memory) :
    kept after := by
  have all : WellFormed after ∧ Settled registry after ∧ kept after := by
    induction evolves with
    | refl => exact ⟨wellFormed, settled, start⟩
    | tail _ change ih =>
      obtain ⟨wellFormed, settled, kept⟩ := ih
      exact ⟨change.wellFormed wellFormed, change.settled wellFormed settled,
        step change wellFormed settled kept⟩
  exact all.2.2

/-- What nothing known satisfies, and what more variables and every change keep, is true of every
memory that operations build. -/
theorem Arises.induct {kept : Variables → Memory → Prop} (arises : Arises registry memory)
    (start : ∀ registry, kept registry .empty)
    (grow : ∀ {old new memory}, Arises old memory → old.Grows new → kept old memory →
      kept new memory)
    (step : ∀ {registry old new}, Change registry old new → WellFormed old →
      Settled registry old → kept registry old → kept registry new) : kept registry memory := by
  induction arises with
  | start registry => exact start registry
  | grow arises grows ih => exact grow arises grows ih
  | operate arises operation issued ih =>
    exact (evolves_run _ operation issued).keep step arises.wellFormed arises.settled ih

end Invariants

end PauseFlow.Memory
