import PauseFlow.Proofs.Memory.Invariant

namespace PauseFlow.Memory

variable {memory : Memory} {registry : Variables}

/-- What a class is narrowed to. -/
def narrowed (memory : Memory) (registry : Variables) (var : Var) (value : AbstractValue) :
    AbstractValue :=
  (memory.value registry var).meet registry.table value

/-- The memory in which the class of a root is known to be of a value. -/
def withFact (memory : Memory) (root : Var) (value : AbstractValue) : Memory :=
  { memory with facts := memory.facts.insert root value }

/-- Narrowing records the meet, or leaves the memory when that contradicts it. -/
theorem narrow_cases (memory : Memory) (registry : Variables) (var : Var) (value : AbstractValue) :
    ((memory.narrowed registry var value = .bottom ∨
        memory.isExcluded (memory.root var) (memory.narrowed registry var value) = true) ∧
      memory.narrow registry var value = (false, memory)) ∨
    (memory.narrowed registry var value ≠ .bottom ∧
      memory.isExcluded (memory.root var) (memory.narrowed registry var value) = false ∧
      memory.narrow registry var value =
        (true, memory.withFact (memory.root var) (memory.narrowed registry var value))) := by
  have unfolded : memory.narrow registry var value =
      if (memory.narrowed registry var value = .bottom ||
          memory.isExcluded (memory.root var) (memory.narrowed registry var value)) = true
      then (false, memory)
      else (true, memory.withFact (memory.root var) (memory.narrowed registry var value)) := rfl
  rw [unfolded]
  split
  · rename_i clash
    exact .inl ⟨by simpa using clash, rfl⟩
  · rename_i fits
    simp only [Bool.or_eq_true, decide_eq_true_eq, not_or] at fits
    exact .inr ⟨fits.1, Bool.eq_false_iff.mpr fits.2, rfl⟩

theorem value_withFact (memory : Memory) (registry : Variables) (root : Var)
    (value : AbstractValue) (var : Var) :
    (memory.withFact root value).value registry var =
      if memory.root var = root then value else memory.value registry var := by
  simp only [Memory.value, classValue, withFact, OrderedMap.get?_insert]
  change ((if memory.root var = root then some value else memory.facts.get? (memory.root var)).getD
    (registry.declared (memory.root var))) = _
  split <;> rfl

theorem WellFormed.narrow (wellFormed : WellFormed memory) (var : Var) (value : AbstractValue) :
    WellFormed (memory.narrow registry var value).2 := by
  rcases narrow_cases memory registry var value with ⟨_, result⟩ | ⟨possible, _, result⟩
  · rw [result]
    exact wellFormed
  · rw [result]
    exact wellFormed.insertFact (root_top wellFormed.grounded var) possible

theorem mem_appendNew_iff {present added : List AbstractValue} {value : AbstractValue} :
    value ∈ appendNew present added ↔ value ∈ present ∨ value ∈ added := by
  unfold appendNew
  induction added generalizing present with
  | nil => simp
  | cons first rest ih =>
    rw [List.foldl_cons, ih]
    split
    · rename_i known
      constructor
      · intro either
        rcases either with old | later
        · exact .inl old
        · exact .inr (List.mem_cons_of_mem first later)
      · intro either
        rcases either with old | new
        · exact .inl old
        · rcases List.mem_cons.mp new with rfl | later
          · exact .inl known
          · exact .inr later
    · simp only [List.mem_append, List.mem_cons, List.not_mem_nil, or_false, or_assoc]

/-- The memory in which the class of one root has joined that of another one. -/
def merged (memory : Memory) (kept dropped : Var) (value : AbstractValue) : Memory :=
  { links := memory.links.insert dropped kept
    facts := (memory.facts.erase dropped).insert kept value
    apart := renameApart memory.apart dropped kept
    excluded := mergeExcluded memory.excluded kept dropped }

/-- What two classes together are known to hold. -/
def overlap (memory : Memory) (registry : Variables) (left right : Var) : AbstractValue :=
  (memory.value registry left).meet registry.table (memory.value registry right)

/-- Uniting does nothing within a class, merges two classes that fit each other, and
otherwise leaves the memory. -/
theorem unite_cases (memory : Memory) (registry : Variables) (left right : Var) :
    (memory.root left = memory.root right ∧ memory.unite registry left right = (true, memory)) ∨
    (memory.root left ≠ memory.root right ∧
      (memory.Apart (memory.root left) (memory.root right) ∨
        memory.overlap registry left right = .bottom ∨
        memory.isExcluded (memory.root left) (memory.overlap registry left right) = true ∨
        memory.isExcluded (memory.root right) (memory.overlap registry left right) = true) ∧
      memory.unite registry left right = (false, memory)) ∨
    (memory.root left ≠ memory.root right ∧
      ¬ memory.Apart (memory.root left) (memory.root right) ∧
      memory.overlap registry left right ≠ .bottom ∧
      memory.isExcluded (memory.root left) (memory.overlap registry left right) = false ∧
      memory.isExcluded (memory.root right) (memory.overlap registry left right) = false ∧
      memory.unite registry left right =
        (true, memory.merged (memory.root left) (memory.root right)
          (memory.overlap registry left right))) := by
  have unfolded : memory.unite registry left right =
      if memory.root left = memory.root right then (true, memory)
      else if memory.apart.contains (sorted (memory.root left) (memory.root right)) = true
      then (false, memory)
      else if (memory.overlap registry left right = .bottom ||
          memory.isExcluded (memory.root left) (memory.overlap registry left right) ||
          memory.isExcluded (memory.root right) (memory.overlap registry left right)) = true
      then (false, memory)
      else (true, memory.merged (memory.root left) (memory.root right)
          (memory.overlap registry left right)) := rfl
  rw [unfolded]
  split
  · rename_i same
    exact .inl ⟨same, rfl⟩
  · rename_i different
    split
    · rename_i apart
      exact .inr (.inl ⟨different, .inl apart, rfl⟩)
    · rename_i unrelated
      split
      · rename_i clash
        simp only [Bool.or_eq_true, decide_eq_true_eq, or_assoc] at clash
        exact .inr (.inl ⟨different, .inr clash, rfl⟩)
      · rename_i fits
        simp only [Bool.or_eq_true, decide_eq_true_eq, not_or] at fits
        exact .inr (.inr ⟨different, unrelated, fits.1.1, Bool.eq_false_iff.mpr fits.1.2,
          Bool.eq_false_iff.mpr fits.2, rfl⟩)

section Merged

variable {kept dropped : Var} {value : AbstractValue}

theorem get?_facts_merged (memory : Memory) (kept dropped : Var) (value : AbstractValue)
    (var : Var) : (memory.merged kept dropped value).facts.get? var =
      if var = kept then some value else if var = dropped then none else memory.facts.get? var := by
  simp [merged]

private theorem rooted_merged (wellFormed : WellFormed memory) (different : kept ≠ dropped)
    (keptTop : memory.links.get? kept = none) (droppedTop : memory.links.get? dropped = none)
    (var : Var) : ∃ steps, Rooted (memory.merged kept dropped value).links steps var
      (relabel dropped kept (memory.root var)) := by
  obtain ⟨steps, rooted⟩ := rooted_root wellFormed.grounded var
  exact rooted.insert different keptTop droppedTop

/-- The dropped root's class gets the kept root. -/
theorem root_merged (wellFormed : WellFormed memory) (different : kept ≠ dropped)
    (keptTop : memory.links.get? kept = none) (droppedTop : memory.links.get? dropped = none)
    (var : Var) : (memory.merged kept dropped value).root var =
      relabel dropped kept (memory.root var) := by
  obtain ⟨_, rooted⟩ := rooted_merged wellFormed different keptTop droppedTop var
  exact rooted.root_eq

theorem value_merged (wellFormed : WellFormed memory) (different : kept ≠ dropped)
    (keptTop : memory.links.get? kept = none) (droppedTop : memory.links.get? dropped = none)
    (var : Var) : (memory.merged kept dropped value).value registry var =
      if memory.root var = kept ∨ memory.root var = dropped then value
      else memory.value registry var := by
  rw [Memory.value, root_merged wellFormed different keptTop droppedTop, classValue,
    get?_facts_merged]
  by_cases inDropped : memory.root var = dropped
  · simp [inDropped]
  · rw [relabel_of_ne inDropped]
    by_cases inKept : memory.root var = kept
    · simp [inKept]
    · simp [inKept, inDropped, Memory.value, classValue]

theorem apart_merged_iff (wellFormed : WellFormed memory) (different : kept ≠ dropped)
    (left right : Var) : (memory.merged kept dropped value).Apart left right ↔
      (left ≠ dropped ∧ right ≠ dropped ∧ memory.Apart left right) ∨
        ∃ other, other ≠ dropped ∧ memory.Apart dropped other ∧
          ((left = kept ∧ right = other) ∨ (left = other ∧ right = kept)) := by
  apply (contains_renameApart wellFormed.proper different (sorted left right)).trans
  have outside := not_congr (sorted_mentions left right dropped)
  simp only [not_or] at outside
  simp only [outside, sorted_eq_iff]
  constructor
  · intro either
    rcases either with ⟨present, free⟩ | joined
    · exact .inl ⟨free.1, free.2, present⟩
    · exact .inr joined
  · intro either
    rcases either with ⟨leftFree, rightFree, present⟩ | joined
    · exact .inl ⟨present, leftFree, rightFree⟩
    · exact .inr joined

theorem exclusions_merged (different : kept ≠ dropped) (var : Var) :
    (memory.merged kept dropped value).exclusions var =
      if var = kept then appendNew (memory.exclusions kept) (memory.exclusions dropped)
      else if var = dropped then [] else memory.exclusions var := by
  simp only [merged, exclusions, mergeExcluded]
  cases moved : memory.excluded.get? dropped with
  | none =>
    by_cases inKept : var = kept
    · simp [inKept, appendNew]
    · by_cases inDropped : var = dropped
      · simp [inDropped, Ne.symm different, moved]
      · simp [inKept, inDropped]
  | some values =>
    by_cases inKept : var = kept
    · simp [inKept]
    · by_cases inDropped : var = dropped
      · simp [inDropped, Ne.symm different]
      · simp [inKept, inDropped]

/-- A root other than the dropped one stays a root. -/
theorem top_merged {var : Var} (top : memory.links.get? var = none) (other : var ≠ dropped) :
    (memory.merged kept dropped value).links.get? var = none := by
  simp [merged, other, top]

private theorem factAtRoot_merged (wellFormed : WellFormed memory) (different : kept ≠ dropped)
    (keptTop : memory.links.get? kept = none) {var : Var} {found : AbstractValue}
    (known : (memory.merged kept dropped value).facts.get? var = some found) :
    (memory.merged kept dropped value).links.get? var = none := by
  rw [get?_facts_merged] at known
  split at known
  · rename_i here
    rw [here]
    exact top_merged keptTop different
  · split at known
    · cases known
    · rename_i outside
      exact top_merged (wellFormed.factAtRoot known) outside

private theorem excludedAtRoot_merged (wellFormed : WellFormed memory) (different : kept ≠ dropped)
    (keptTop : memory.links.get? kept = none) {var : Var} {values : List AbstractValue}
    (known : (memory.merged kept dropped value).excluded.get? var = some values) :
    (memory.merged kept dropped value).links.get? var = none := by
  simp only [merged, mergeExcluded] at known
  split at known
  · rename_i free
    apply top_merged (wellFormed.excludedAtRoot known)
    intro same
    subst same
    rw [free] at known
    cases known
  · simp only [OrderedMap.get?_insert, OrderedMap.get?_erase] at known
    split at known
    · rename_i here
      rw [here]
      exact top_merged keptTop different
    · split at known
      · cases known
      · rename_i outside
        exact top_merged (wellFormed.excludedAtRoot known) outside

private theorem apartAtRoot_merged (wellFormed : WellFormed memory) (different : kept ≠ dropped)
    (keptTop : memory.links.get? kept = none) {pair : Var × Var}
    (present : (memory.merged kept dropped value).apart.contains pair = true) :
    (memory.merged kept dropped value).links.get? pair.1 = none ∧
      (memory.merged kept dropped value).links.get? pair.2 = none := by
  rcases (contains_renameApart wellFormed.proper different pair).mp present with
    ⟨earlier, first, second⟩ | ⟨other, otherFree, earlier, rfl⟩
  · have tops := wellFormed.apartAtRoot earlier
    exact ⟨top_merged tops.1 first, top_merged tops.2 second⟩
  · have otherTop := (wellFormed.top_of_apart earlier).2
    exact (sorted_both (fun var => (memory.merged kept dropped value).links.get? var = none) kept
      other).mpr ⟨top_merged keptTop different, top_merged otherTop otherFree⟩

private theorem sharedKnown_merged (wellFormed : WellFormed memory) (different : kept ≠ dropped)
    (keptTop : memory.links.get? kept = none) (droppedTop : memory.links.get? dropped = none)
    {var parent : Var} (link : (memory.merged kept dropped value).links.get? var = some parent) :
    ∃ known, (memory.merged kept dropped value).facts.get?
      ((memory.merged kept dropped value).root var) = some known := by
  rw [root_merged wellFormed different keptTop droppedTop, get?_facts_merged]
  by_cases inDropped : memory.root var = dropped
  · exact ⟨value, by simp [inDropped]⟩
  · rw [relabel_of_ne inDropped]
    by_cases inKept : memory.root var = kept
    · exact ⟨value, by simp [inKept]⟩
    · have outside : var ≠ dropped := by
        intro same
        subst same
        exact inDropped (root_of_top droppedTop)
      have linked : memory.links.get? var = some parent := by
        simpa [merged, outside] using link
      obtain ⟨old, known⟩ := wellFormed.sharedKnown linked
      exact ⟨old, by simp [inKept, inDropped, known]⟩

theorem WellFormed.merged (wellFormed : WellFormed memory) (different : kept ≠ dropped)
    (keptTop : memory.links.get? kept = none) (droppedTop : memory.links.get? dropped = none)
    (unrelated : ¬ memory.Apart kept dropped) (possible : value ≠ .bottom) :
    WellFormed (memory.merged kept dropped value) where
  grounded var := by
    obtain ⟨steps, rooted⟩ := rooted_merged wellFormed different keptTop droppedTop var
    exact ⟨steps, _, rooted⟩
  factAtRoot := factAtRoot_merged wellFormed different keptTop
  possible known := by
    rw [get?_facts_merged] at known
    split at known
    · cases known
      exact possible
    · split at known
      · cases known
      · exact wellFormed.possible known
  excludedAtRoot := excludedAtRoot_merged wellFormed different keptTop
  apartAtRoot := apartAtRoot_merged wellFormed different keptTop
  proper := wellFormed.proper.renameApart different fun present => unrelated (Apart.symm present)
  sharedKnown := sharedKnown_merged wellFormed different keptTop droppedTop

end Merged

theorem WellFormed.unite (wellFormed : WellFormed memory) (left right : Var) :
    WellFormed (memory.unite registry left right).2 := by
  rcases unite_cases memory registry left right with
    ⟨_, result⟩ | ⟨_, _, result⟩ | ⟨different, unrelated, possible, _, _, result⟩
  · rw [result]
    exact wellFormed
  · rw [result]
    exact wellFormed
  · rw [result]
    exact wellFormed.merged different (root_top wellFormed.grounded left)
      (root_top wellFormed.grounded right) unrelated possible

/-- The memory in which two roots are known to differ. -/
def withApart (memory : Memory) (left right : Var) : Memory :=
  { memory with apart := memory.apart.insert (sorted left right) () }

/-- Separating fails within a class and between equal identity constants, and otherwise
records the pair. -/
theorem separate_cases (memory : Memory) (registry : Variables) (left right : Var) :
    ((memory.root left = memory.root right ∨
        ((memory.value registry left).isIdentityConstant = true ∧
          memory.value registry left = memory.value registry right)) ∧
      memory.separate registry left right = (false, memory)) ∨
    (memory.root left ≠ memory.root right ∧
      memory.separate registry left right =
        (true, memory.withApart (memory.root left) (memory.root right))) := by
  have unfolded : memory.separate registry left right =
      if memory.root left = memory.root right then (false, memory)
      else if ((memory.value registry left).isIdentityConstant &&
          memory.value registry left = memory.value registry right) = true then (false, memory)
      else (true, memory.withApart (memory.root left) (memory.root right)) := rfl
  rw [unfolded]
  split
  · rename_i same
    exact .inl ⟨.inl same, rfl⟩
  · rename_i different
    split
    · rename_i clash
      exact .inl ⟨.inr (by simpa using clash), rfl⟩
    · exact .inr ⟨different, rfl⟩

theorem apart_withApart_iff (memory : Memory) (left right first second : Var) :
    (memory.withApart left right).Apart first second ↔
      (first = left ∧ second = right) ∨ (first = right ∧ second = left) ∨
        memory.Apart first second := by
  rw [Apart, withApart, OrderedMap.contains_insert, sorted_eq_iff, or_assoc, Apart]

theorem WellFormed.separate (wellFormed : WellFormed memory) (left right : Var) :
    WellFormed (memory.separate registry left right).2 := by
  rcases separate_cases memory registry left right with ⟨_, result⟩ | ⟨different, result⟩
  · rw [result]
    exact wellFormed
  · rw [result]
    exact wellFormed.insertApart different (root_top wellFormed.grounded left)
      (root_top wellFormed.grounded right)

/-- The memory in which the class of a root is known not to hold a constant. -/
def withExclusion (memory : Memory) (root : Var) (value : AbstractValue) : Memory :=
  { memory with
    excluded := memory.excluded.insert root (appendNew (memory.exclusions root) [value]) }

/-- Excluding fails on the constant itself, narrows where the rest can be said as a value,
records other constants and learns nothing otherwise. -/
theorem exclude_cases (memory : Memory) (registry : Variables) (var : Var)
    (value : AbstractValue) :
    (memory.value registry var = value ∧ memory.exclude registry var value = (false, memory)) ∨
    (∃ other, complement? value = some other ∧
      memory.exclude registry var value = memory.narrow registry var other) ∨
    (complement? value = none ∧ value.isConstant = true ∧ memory.value registry var ≠ value ∧
      memory.exclude registry var value =
        (true, memory.withExclusion (memory.root var) value)) ∨
    memory.exclude registry var value = (true, memory) := by
  unfold Memory.exclude
  simp only
  split
  · rename_i clash
    simp only [Bool.and_eq_true, decide_eq_true_eq] at clash
    exact .inl ⟨clash.2, rfl⟩
  · rename_i fits
    cases rest : complement? value with
    | some other => exact .inr (.inl ⟨other, rfl, rfl⟩)
    | none =>
      by_cases constant : value.isConstant = true
      · refine .inr (.inr (.inl ⟨rfl, constant, fun same => fits ?_, ?_⟩))
        · have known : memory.classValue registry (memory.root var) = value := same
          simp [known, constant]
        · simp [constant, withExclusion]
      · exact .inr (.inr (.inr (by simp [constant])))

theorem exclusions_withExclusion (memory : Memory) (root : Var) (value : AbstractValue)
    (var : Var) : (memory.withExclusion root value).exclusions var =
      if var = root then appendNew (memory.exclusions root) [value] else memory.exclusions var := by
  simp only [exclusions, withExclusion, OrderedMap.get?_insert]
  split <;> rfl

private theorem WellFormed.exclude (wellFormed : WellFormed memory) (var : Var)
    (value : AbstractValue) : WellFormed (memory.exclude registry var value).2 := by
  rcases exclude_cases memory registry var value with
    ⟨_, result⟩ | ⟨other, _, result⟩ | ⟨_, _, _, result⟩ | result
  · rw [result]
    exact wellFormed
  · rw [result]
    exact wellFormed.narrow var other
  · rw [result]
    exact wellFormed.insertExcluded (root_top wellFormed.grounded var)
  · rw [result]
    exact wellFormed

/-- Whatever a comparison of numbers learns is a narrowing or an exclusion. -/
theorem assumeFloating_cases (memory : Memory) (registry : Variables) (condition : Condition) :
    (∃ answer, memory.assumeFloating registry condition = (answer, memory)) ∨
    (∃ value, condition.right = .constant value ∧
      memory.assumeFloating registry condition = memory.narrow registry condition.left value) ∨
    (∃ value, condition.right = .constant value ∧
      memory.assumeFloating registry condition =
        memory.exclude registry condition.left value) := by
  unfold assumeFloating
  dsimp only
  split
  · exact .inl ⟨_, rfl⟩
  · split
    · exact .inl ⟨_, rfl⟩
    · split
      · rename_i value bits operand _
        split
        · exact .inl ⟨_, rfl⟩
        · split
          · exact .inr (.inl ⟨value, operand, rfl⟩)
          · exact .inr (.inr ⟨value, operand, rfl⟩)
      · exact .inl ⟨_, rfl⟩

theorem WellFormed.assume (wellFormed : WellFormed memory) (condition : Condition) :
    WellFormed (memory.assume registry condition).2 := by
  unfold Memory.assume
  split
  · rcases assumeFloating_cases memory registry condition with
      ⟨_, result⟩ | ⟨value, _, result⟩ | ⟨value, _, result⟩
    · rw [result]
      exact wellFormed
    · rw [result]
      exact wellFormed.narrow _ value
    · rw [result]
      exact wellFormed.exclude _ value
  · split
    · exact wellFormed.unite _ _
    · exact wellFormed.narrow _ _
    · exact wellFormed.separate _ _
    · exact wellFormed.exclude _ _

end PauseFlow.Memory
