import PauseFlow.Proofs.Memory.Operation

/-! The form of what reachable memories record: facts are as constructors and meets give them,
excluded constants have no complement, and no class is known to hold a constant excluded for it. -/
namespace PauseFlow.Memory

structure Shaped (memory : Memory) : Prop where
  regular : ∀ {root value}, memory.facts.get? root = some value → value.Regular
  plain : ∀ {root value}, value ∈ memory.exclusions root → complement? value = none
  consistent : ∀ {root value}, memory.facts.get? root = some value →
    memory.isExcluded root value = false

private theorem shaped_empty : Shaped .empty where
  regular found := by cases found
  plain member := by cases member
  consistent found := by cases found

section Operations

variable {memory : Memory} {registry : Variables}

theorem isExcluded_eq_false_iff {root : Var} {value : AbstractValue} :
    memory.isExcluded root value = false ↔
      (value.isConstant = true → value ∉ memory.exclusions root) := by
  rw [isExcluded, Bool.and_eq_false_imp]
  simp only [decide_eq_false_iff_not]

theorem isExcluded_merged {kept dropped : Var} {value : AbstractValue}
    (different : kept ≠ dropped) (root : Var) (known : AbstractValue) :
    (memory.merged kept dropped value).isExcluded root known =
      if root = kept then memory.isExcluded kept known || memory.isExcluded dropped known
      else if root = dropped then false else memory.isExcluded root known := by
  simp only [isExcluded, exclusions_merged different]
  split
  · simp only [mem_appendNew_iff, Bool.decide_or, Bool.and_or_distrib_left]
  · split <;> simp

theorem isExcluded_withExclusion (memory : Memory) (root : Var) (value : AbstractValue)
    (var : Var) (known : AbstractValue) :
    (memory.withExclusion root value).isExcluded var known =
      (memory.isExcluded var known || (known.isConstant && var = root && known = value)) := by
  simp only [isExcluded, exclusions_withExclusion]
  by_cases here : var = root
  · simp [here, mem_appendNew_iff, Bool.and_or_distrib_left]
  · simp [here]

theorem Shaped.regular_value (shaped : Shaped memory)
    (declared : ∀ var, (registry.declared var).Regular) (var : Var) :
    (memory.value registry var).Regular := by
  unfold value classValue
  cases found : memory.facts.get? (memory.root var) with
  | none => exact declared _
  | some value => exact shaped.regular found

private theorem Shaped.withFact (shaped : Shaped memory) {root : Var} {value : AbstractValue}
    (regular : value.Regular) (free : memory.isExcluded root value = false) :
    Shaped (memory.withFact root value) where
  regular {other known} found := by
    simp only [Memory.withFact, OrderedMap.get?_insert] at found
    split at found
    · cases found
      exact regular
    · exact shaped.regular found
  plain := shaped.plain
  consistent {other known} found := by
    simp only [Memory.withFact, OrderedMap.get?_insert] at found
    split at found
    · rename_i here
      cases found
      exact here ▸ free
    · exact shaped.consistent found

private theorem Shaped.narrow (shaped : Shaped memory)
    (declared : ∀ var, (registry.declared var).Regular) (var : Var) {value : AbstractValue}
    (regular : value.Regular) : Shaped (memory.narrow registry var value).2 := by
  rcases narrow_cases memory registry var value with ⟨_, result⟩ | ⟨_, free, result⟩
  · rw [result]
    exact shaped
  · rw [result]
    exact shaped.withFact (AbstractValue.regular_meet (shaped.regular_value declared var) regular)
      free

private theorem Shaped.merged (shaped : Shaped memory) {kept dropped : Var} {value : AbstractValue}
    (different : kept ≠ dropped) (regular : value.Regular)
    (freeKept : memory.isExcluded kept value = false)
    (freeDropped : memory.isExcluded dropped value = false) :
    Shaped (memory.merged kept dropped value) where
  regular {root known} found := by
    rw [get?_facts_merged] at found
    split at found
    · cases found
      exact regular
    · split at found
      · cases found
      · exact shaped.regular found
  plain {root excluded} member := by
    rw [exclusions_merged different] at member
    split at member
    · rcases mem_appendNew_iff.mp member with old | moved
      · exact shaped.plain old
      · exact shaped.plain moved
    · split at member
      · cases member
      · exact shaped.plain member
  consistent {root known} found := by
    rw [get?_facts_merged] at found
    rw [isExcluded_merged different]
    split at found
    · rename_i here
      cases found
      simp [here, freeKept, freeDropped]
    · rename_i outside
      rw [if_neg outside]
      split at found
      · cases found
      · rename_i other
        rw [if_neg other]
        exact shaped.consistent found

private theorem Shaped.unite (shaped : Shaped memory)
    (declared : ∀ var, (registry.declared var).Regular) (left right : Var) :
    Shaped (memory.unite registry left right).2 := by
  rcases unite_cases memory registry left right with
    ⟨_, result⟩ | ⟨_, _, result⟩ | ⟨different, _, _, freeKept, freeDropped, result⟩
  · rw [result]
    exact shaped
  · rw [result]
    exact shaped
  · rw [result]
    exact shaped.merged different (AbstractValue.regular_meet (shaped.regular_value declared left)
      (shaped.regular_value declared right)) freeKept freeDropped

private theorem Shaped.separate (shaped : Shaped memory) (left right : Var) :
    Shaped (memory.separate registry left right).2 := by
  rcases separate_cases memory registry left right with ⟨_, result⟩ | ⟨_, result⟩
  · rw [result]
    exact shaped
  · rw [result]
    exact ⟨shaped.regular, shaped.plain, shaped.consistent⟩

private theorem Shaped.exclude (shaped : Shaped memory)
    (declared : ∀ var, (registry.declared var).Regular) (var : Var) (value : AbstractValue) :
    Shaped (memory.exclude registry var value).2 := by
  rcases exclude_cases memory registry var value with
    ⟨_, result⟩ | ⟨other, complement, result⟩ | ⟨plain, _, different, result⟩ | result
  · rw [result]
    exact shaped
  · rw [result]
    exact shaped.narrow declared var (AbstractValue.regular_complement complement)
  · rw [result]
    refine ⟨shaped.regular, fun {root excluded} member => ?_, fun {root known} found => ?_⟩
    · rw [exclusions_withExclusion] at member
      split at member
      · rcases mem_appendNew_iff.mp member with old | new
        · exact shaped.plain old
        · rwa [List.mem_singleton.mp new]
      · exact shaped.plain member
    · rw [isExcluded_withExclusion, shaped.consistent found, Bool.false_or]
      by_contra clash
      simp only [Bool.not_eq_false, Bool.and_eq_true, decide_eq_true_eq] at clash
      obtain ⟨⟨_, here⟩, same⟩ := clash
      change memory.facts.get? root = some known at found
      apply different
      rw [← same, Memory.value, classValue, ← here, found]
      rfl
  · rw [result]
    exact shaped

private theorem Shaped.assume (shaped : Shaped memory)
    (declared : ∀ var, (registry.declared var).Regular) (condition : Condition)
    (constant : ∀ value, condition.right = .constant value → value.Regular) :
    Shaped (memory.assume registry condition).2 := by
  unfold Memory.assume
  split
  · rcases assumeFloating_cases memory registry condition with
      ⟨_, result⟩ | ⟨value, operand, result⟩ | ⟨value, _, result⟩
    · rw [result]
      exact shaped
    · rw [result]
      exact shaped.narrow declared _ (constant value operand)
    · rw [result]
      exact shaped.exclude declared _ value
  · split
    · exact shaped.unite declared _ _
    · rename_i value _ operand
      exact shaped.narrow declared _ (constant value operand)
    · exact shaped.separate _ _
    · exact shaped.exclude declared _ _

theorem exclusions_detach (wellFormed : WellFormed memory) (var root : Var) :
    (memory.detach var).exclusions root =
      if root = var then [] else memory.exclusions (relabel (memory.heir var) var root) := by
  rw [exclusions, get?_excluded_detach wellFormed]
  split <;> rfl

theorem isExcluded_detach (wellFormed : WellFormed memory) (var root : Var)
    (known : AbstractValue) : (memory.detach var).isExcluded root known =
      if root = var then false else memory.isExcluded (relabel (memory.heir var) var root) known := by
  simp only [isExcluded, exclusions_detach wellFormed]
  split <;> simp

private theorem Shaped.detach (shaped : Shaped memory) (wellFormed : WellFormed memory)
    (var : Var) : Shaped (memory.detach var) where
  regular {root value} found := by
    rw [get?_facts_detach wellFormed] at found
    split at found
    · cases found
    · exact shaped.regular found
  plain {root value} member := by
    rw [exclusions_detach wellFormed] at member
    split at member
    · cases member
    · exact shaped.plain member
  consistent {root value} found := by
    rw [get?_facts_detach wellFormed] at found
    split at found
    · cases found
    · rename_i outside
      rw [isExcluded_detach wellFormed, if_neg outside]
      exact shaped.consistent found

theorem Shaped.forget (shaped : Shaped memory) (wellFormed : WellFormed memory)
    (registry : Variables) (var : Var) : Shaped (memory.forget registry var) :=
  wellFormed.forget_induct shaped (fun wellFormed shaped => shaped.detach wellFormed) registry var

private theorem Shaped.run (shaped : Shaped memory) (wellFormed : WellFormed memory)
    (declared : ∀ var, (registry.declared var).Regular) (operation : Operation)
    (regular : ∀ value ∈ operation.constants, value.Regular) :
    Shaped (operation.run registry memory).2 := by
  cases operation with
  | assume condition =>
    obtain ⟨left, relation, right⟩ := condition
    apply shaped.assume declared _
    intro value operand
    subst operand
    exact regular value (by simp [Operation.constants, operandConstants])
  | unite left right => exact shaped.unite declared left right
  | narrow var value => exact shaped.narrow declared var (regular value (by simp [Operation.constants]))
  | forget var => exact shaped.forget wellFormed registry var

end Operations

section Reaching

variable {registry : Variables} {memory : Memory}

theorem declared_or_top (built : registry.Built AbstractValue.Declared) (var : Var) :
    (registry.declared var).Declared := by
  by_cases issued : registry.Issued var
  · exact built.allowed issued
  · rw [Variables.declared_of_not_issued issued]
    exact .top

theorem regular_declared (built : registry.Built AbstractValue.Declared) (var : Var) :
    (registry.declared var).Regular :=
  (declared_or_top built var).regular

private theorem not_isConstant_declared (built : registry.Built AbstractValue.Declared)
    (var : Var) : (registry.declared var).isConstant = false :=
  (declared_or_top built var).not_isConstant

/-- What is known of a class is not excluded for it. -/
theorem Shaped.not_isExcluded_value (shaped : Shaped memory)
    (built : registry.Built AbstractValue.Declared) (var : Var) :
    memory.isExcluded (memory.root var) (memory.value registry var) = false := by
  unfold value classValue
  cases found : memory.facts.get? (memory.root var) with
  | some value => exact shaped.consistent found
  | none =>
    rw [isExcluded_eq_false_iff]
    intro constant
    rw [Option.getD_none, not_isConstant_declared built] at constant
    cases constant

theorem Reachable.shaped (reached : Reachable AbstractValue.Declared registry memory) :
    Shaped memory := by
  induction reached with
  | start table => exact shaped_empty
  | request _ _ _ ih => exact ih
  | operate reached operation constructed ih =>
    exact ih.run reached.wellFormed (regular_declared reached.built) operation
      fun value member => (constructed value member).regular

end Reaching

end PauseFlow.Memory
