import PauseFlow.Proofs.Memory.Operation

namespace PauseFlow.Memory

variable {memory : Memory} {registry : Variables}

theorem narrow_accepted_iff (memory : Memory) (registry : Variables) (var : Var)
    (value : AbstractValue) : (memory.narrow registry var value).1 = true ↔
      memory.narrowed registry var value ≠ .bottom ∧
        memory.isExcluded (memory.root var) (memory.narrowed registry var value) = false := by
  rcases narrow_cases memory registry var value with ⟨clash, result⟩ | ⟨possible, free, result⟩
  · rcases clash with empty | excluded
    · simp [result, empty]
    · simp [result, excluded]
  · simp [result, possible, free]

theorem unite_accepted_iff (memory : Memory) (registry : Variables) (left right : Var) :
    (memory.unite registry left right).1 = true ↔
      memory.root left = memory.root right ∨
        (¬ memory.Apart (memory.root left) (memory.root right) ∧
          memory.overlap registry left right ≠ .bottom ∧
          memory.isExcluded (memory.root left) (memory.overlap registry left right) = false ∧
          memory.isExcluded (memory.root right) (memory.overlap registry left right) = false) := by
  rcases unite_cases memory registry left right with ⟨same, result⟩ | ⟨different, clash, result⟩ |
    ⟨_, unrelated, possible, freeLeft, freeRight, result⟩
  · simp [result, same]
  · rcases clash with apart | empty | inLeft | inRight
    · simp [result, different, apart]
    · simp [result, different, empty]
    · simp [result, different, inLeft]
    · simp [result, different, inRight]
  · simp [result, unrelated, possible, freeLeft, freeRight]

theorem separate_accepted_iff (memory : Memory) (registry : Variables) (left right : Var) :
    (memory.separate registry left right).1 = true ↔
      memory.root left ≠ memory.root right ∧
        ¬ ((memory.value registry left).isIdentityConstant = true ∧
          memory.value registry left = memory.value registry right) := by
  have unfolded : memory.separate registry left right =
      if memory.root left = memory.root right then (false, memory)
      else if (memory.value registry left).isIdentityConstant &&
          memory.value registry left = memory.value registry right then (false, memory)
      else (true, memory.withApart (memory.root left) (memory.root right)) := rfl
  rw [unfolded]
  split
  · rename_i same
    simp [same]
  · rename_i different
    split
    · rename_i clash
      simp only [Bool.and_eq_true, decide_eq_true_eq] at clash
      exact ⟨nofun, fun fits => absurd clash fits.2⟩
    · rename_i fits
      simp only [Bool.and_eq_true, decide_eq_true_eq] at fits
      exact ⟨fun _ => ⟨different, fits⟩, fun _ => rfl⟩

theorem exclude_of_plain {var : Var} {constant : AbstractValue}
    (isConstant : constant.isConstant = true) (plain : complement? constant = none)
    (different : memory.value registry var ≠ constant) :
    memory.exclude registry var constant =
      (true, memory.withExclusion (memory.root var) constant) := by
  have other : memory.classValue registry (memory.root var) ≠ constant := different
  simp [exclude, plain, isConstant, other, withExclusion]

/-- A constant is excluded unless it is known; what is left of its sort must fit if that can be
said as a value. -/
theorem exclude_accepted_iff (memory : Memory) (registry : Variables) (var : Var)
    {constant : AbstractValue} (isConstant : constant.isConstant = true) :
    (memory.exclude registry var constant).1 = true ↔
      memory.value registry var ≠ constant ∧ ∀ other, complement? constant = some other →
        (memory.narrow registry var other).1 = true := by
  by_cases same : memory.value registry var = constant
  · have known : memory.classValue registry (memory.root var) = constant := same
    have refused : memory.exclude registry var constant = (false, memory) := by
      simp [exclude, known, isConstant]
    simp [refused, same]
  · cases plain : complement? constant with
    | some other =>
      have result : memory.exclude registry var constant = memory.narrow registry var other := by
        have fits : memory.classValue registry (memory.root var) ≠ constant := same
        simp [exclude, plain, fits]
      simp [result, same]
    | none =>
      rw [exclude_of_plain isConstant plain same]
      simp [same]

end PauseFlow.Memory
