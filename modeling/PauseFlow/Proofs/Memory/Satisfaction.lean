import PauseFlow.Proofs.Abstract.Regular
import PauseFlow.Proofs.Memory.Forgetting
import PauseFlow.Proofs.Memory.Narrowing

namespace PauseFlow

/-- The value of every variable at one moment of a run. -/
abbrev Environment := Var → RuntimeValue

section Conditions

variable {table : ClassTable}

/-- A variable stands for its value, a constant for every value it contains. -/
def Operand.Matches (world : World table) (env : Environment) (operand : Operand)
    (value : RuntimeValue) : Prop :=
  match operand with
  | .var other => value = env other
  | .constant known => known.Contains world value

def Relation.Means (relation : Relation) (same : Prop) : Prop :=
  match relation with
  | .equal => same
  | .different => ¬ same

/-- Variables are compared by identity. A constant asks whether the value is one of those it
stands for. -/
def Condition.Holds (world : World table) (env : Environment) (condition : Condition) : Prop :=
  condition.relation.Means (condition.right.Matches world env (env condition.left))

/-- Exactly one side of a condition is taken. -/
theorem Condition.holds_negate_iff {world : World table} {env : Environment}
    (condition : Condition) : condition.negate.Holds world env ↔ ¬ condition.Holds world env := by
  obtain ⟨left, relation, right⟩ := condition
  cases relation
  · exact Iff.rfl
  · exact not_not.symm

end Conditions

namespace Memory

/-- Values within declarations and facts, with the equalities and differences that the memory
records. -/
structure Fits {table : ClassTable} (world : World table) (registry : Variables) (memory : Memory)
    (env : Environment) : Prop where
  declared : ∀ var, (registry.declared var).Contains world (env var)
  known : ∀ var, (memory.value registry var).Contains world (env var)
  equal : ∀ {left right}, memory.areEqual left right = true → env left = env right
  distinct : ∀ {left right}, memory.areDistinct left right = true → env left ≠ env right

/-- Values that fit the memory and are outside the constants excluded for their class. -/
structure Satisfies {table : ClassTable} (world : World table) (registry : Variables)
    (memory : Memory) (env : Environment) : Prop extends Fits world registry memory env where
  outside : ∀ {var value}, value ∈ memory.exclusions (memory.root var) →
    ¬ value.Contains world (env var)

/-- The operation succeeds and leaves a memory that the values satisfy. -/
def Accepts {table : ClassTable} (world : World table) (registry : Variables) (env : Environment)
    (answer : Bool × Memory) : Prop :=
  answer.1 = true ∧ Satisfies world registry answer.2 env

section Classes

variable {table : ClassTable} {world : World table} {registry : Variables} {memory : Memory}
  {env : Environment}

theorem Fits.eq_of_root (fits : Fits world registry memory env) {left right : Var}
    (same : memory.root left = memory.root right) : env left = env right :=
  fits.equal ((areEqual_iff memory left right).mpr same)

theorem Fits.env_root (fits : Fits world registry memory env) (wellFormed : WellFormed memory)
    (var : Var) : env (memory.root var) = env var :=
  fits.eq_of_root (root_root wellFormed.grounded var)

theorem Fits.ne_of_apart (fits : Fits world registry memory env) (wellFormed : WellFormed memory)
    {left right : Var} (apart : memory.Apart left right) : env left ≠ env right := by
  obtain ⟨leftTop, rightTop⟩ := wellFormed.top_of_apart apart
  refine fits.distinct ((areDistinct_iff memory left right).mpr ?_)
  rwa [root_of_top leftTop, root_of_top rightTop]

/-- A value that is possible for a class is not one of the excluded constants. -/
theorem Satisfies.not_isExcluded (satisfied : Satisfies world registry memory env) {var : Var}
    {value : AbstractValue} (holds : value.Contains world (env var)) :
    memory.isExcluded (memory.root var) value = false := by
  apply Bool.eq_false_iff.mpr
  intro excluded
  simp only [isExcluded, Bool.and_eq_true, decide_eq_true_eq] at excluded
  exact satisfied.outside excluded.2 holds

theorem satisfies_empty (declared : ∀ var, (registry.declared var).Contains world (env var)) :
    Satisfies world registry .empty env where
  declared := declared
  known := declared
  equal same := congrArg env (of_decide_eq_true same)
  distinct apart := by cases apart
  outside member := by cases member

end Classes

section Narrowing

variable {table : ClassTable} {world : World table} {registry : Variables} {memory : Memory}
  {env : Environment} {var : Var} {value : AbstractValue}

private theorem Fits.withFact (fits : Fits world registry memory env)
    (holds : value.Contains world (env var)) :
    Fits world registry (memory.withFact (memory.root var) value) env where
  declared := fits.declared
  known other := by
    rw [value_withFact]
    split
    · rename_i same
      rw [fits.eq_of_root same]
      exact holds
    · exact fits.known other
  equal := fits.equal
  distinct := fits.distinct

private theorem Fits.contains_narrowed (legal : table.Legal) (sameTable : registry.table = table)
    (fits : Fits world registry memory env) (holds : value.Contains world (env var)) :
    (memory.narrowed registry var value).Contains world (env var) := by
  rw [narrowed, sameTable]
  exact AbstractValue.contains_meet legal (fits.known var) holds

/-- Narrowing to a value that a variable has succeeds and contradicts nothing. -/
theorem Satisfies.narrow (legal : table.Legal) (sameTable : registry.table = table)
    (satisfied : Satisfies world registry memory env) (holds : value.Contains world (env var)) :
    Accepts world registry env (memory.narrow registry var value) := by
  have met := satisfied.toFits.contains_narrowed legal sameTable holds
  rcases narrow_cases memory registry var value with ⟨clash, _⟩ | ⟨_, _, result⟩
  · rcases clash with empty | excluded
    · rw [empty] at met
      exact (AbstractValue.not_contains_bottom _ met).elim
    · rw [satisfied.not_isExcluded met] at excluded
      cases excluded
  · rw [result]
    exact ⟨rfl, satisfied.toFits.withFact met, satisfied.outside⟩

end Narrowing

section Merging

variable {table : ClassTable} {world : World table} {registry : Variables} {memory : Memory}
  {env : Environment} {left right : Var}

theorem Fits.contains_overlap (legal : table.Legal) (sameTable : registry.table = table)
    (fits : Fits world registry memory env) (same : env left = env right) :
    (memory.overlap registry left right).Contains world (env left) := by
  rw [overlap, sameTable]
  exact AbstractValue.contains_meet legal (fits.known left) (same ▸ fits.known right)

private theorem env_relabel {kept dropped : Var} (same : env kept = env dropped) (var : Var) :
    env (relabel dropped kept var) = env var := by
  by_cases here : var = dropped
  · rw [here, relabel_self, same]
  · rw [relabel_of_ne here]

theorem Fits.merged (fits : Fits world registry memory env) (wellFormed : WellFormed memory)
    (different : memory.root left ≠ memory.root right) (same : env left = env right)
    {value : AbstractValue} (holds : value.Contains world (env left)) :
    Fits world registry (memory.merged (memory.root left) (memory.root right) value) env := by
  have leftTop := root_top wellFormed.grounded left
  have rightTop := root_top wellFormed.grounded right
  have joined : env (memory.root left) = env (memory.root right) := by
    rw [fits.env_root wellFormed, fits.env_root wellFormed, same]
  have env_root : ∀ var, env ((memory.merged (memory.root left) (memory.root right) value).root
      var) = env var := by
    intro var
    rw [root_merged wellFormed different leftTop rightTop, env_relabel joined,
      fits.env_root wellFormed]
  refine ⟨fits.declared, fun var => ?_, fun {first second} equal => ?_,
    fun {first second} apart => ?_⟩
  · rw [value_merged wellFormed different leftTop rightTop]
    split
    · rename_i inside
      have here : env var = env left := by
        rcases inside with inLeft | inRight
        · exact fits.eq_of_root inLeft
        · exact (fits.eq_of_root inRight).trans same.symm
      rwa [here]
    · exact fits.known var
  · rw [← env_root first, ← env_root second, (areEqual_iff _ first second).mp equal]
  · rw [← env_root first, ← env_root second]
    rcases (apart_merged_iff wellFormed different _ _).mp ((areDistinct_iff _ first second).mp apart)
      with ⟨_, _, earlier⟩ | ⟨other, _, earlier, ⟨firstKept, secondOther⟩ | ⟨firstOther, secondKept⟩⟩
    · exact fits.ne_of_apart wellFormed earlier
    · rw [firstKept, secondOther, joined]
      exact fits.ne_of_apart wellFormed earlier
    · rw [firstOther, secondKept, joined]
      exact (fits.ne_of_apart wellFormed earlier).symm

/-- Uniting variables that have one value succeeds and contradicts nothing. -/
theorem Satisfies.unite (legal : table.Legal) (sameTable : registry.table = table)
    (satisfied : Satisfies world registry memory env) (wellFormed : WellFormed memory)
    (same : env left = env right) :
    Accepts world registry env (memory.unite registry left right) := by
  have inLeft := satisfied.toFits.contains_overlap legal sameTable same
  have inRight := inLeft
  rw [same] at inRight
  rcases unite_cases memory registry left right with
    ⟨_, result⟩ | ⟨_, clash, _⟩ | ⟨different, _, _, _, _, result⟩
  · rw [result]
    exact ⟨rfl, satisfied⟩
  · rcases clash with apart | empty | excluded | excluded
    · exact absurd same (satisfied.distinct apart)
    · rw [empty] at inLeft
      exact (AbstractValue.not_contains_bottom _ inLeft).elim
    · rw [satisfied.not_isExcluded inLeft] at excluded
      cases excluded
    · rw [satisfied.not_isExcluded inRight] at excluded
      cases excluded
  · rw [result]
    have fits := satisfied.toFits.merged wellFormed different same inLeft
    refine ⟨rfl, fits, fun {var value} member => ?_⟩
    rw [root_merged wellFormed different (root_top wellFormed.grounded left)
      (root_top wellFormed.grounded right), exclusions_merged different] at member
    by_cases inDropped : memory.root var = memory.root right
    · rw [inDropped, relabel_self, if_pos rfl] at member
      have here : env var = env right := satisfied.eq_of_root inDropped
      rcases mem_appendNew_iff.mp member with old | moved
      · rw [here, ← same]
        exact satisfied.outside old
      · rw [here]
        exact satisfied.outside moved
    · rw [relabel_of_ne inDropped, if_neg inDropped] at member
      split at member
      · rename_i inKept
        have here : env var = env left := satisfied.eq_of_root inKept
        rcases mem_appendNew_iff.mp member with old | moved
        · rw [here]
          exact satisfied.outside old
        · rw [here, same]
          exact satisfied.outside moved
      · exact satisfied.outside member

end Merging

section Differences

variable {table : ClassTable} {world : World table} {registry : Variables} {memory : Memory}
  {env : Environment} {left right var : Var} {value : AbstractValue}

private theorem Fits.withApart (fits : Fits world registry memory env)
    (wellFormed : WellFormed memory) (different : env left ≠ env right) :
    Fits world registry (memory.withApart (memory.root left) (memory.root right)) env where
  declared := fits.declared
  known := fits.known
  equal := fits.equal
  distinct {first second} apart := by
    have env_root := fits.env_root wellFormed
    rw [areDistinct_iff, apart_withApart_iff] at apart
    rcases apart with ⟨firstLeft, secondRight⟩ | ⟨firstRight, secondLeft⟩ | earlier
    · rw [fits.eq_of_root (firstLeft.trans (root_root wellFormed.grounded left).symm),
        fits.eq_of_root (secondRight.trans (root_root wellFormed.grounded right).symm),
        env_root, env_root]
      exact different
    · rw [fits.eq_of_root (firstRight.trans (root_root wellFormed.grounded right).symm),
        fits.eq_of_root (secondLeft.trans (root_root wellFormed.grounded left).symm),
        env_root, env_root]
      exact different.symm
    · exact fits.distinct earlier

/-- Separating variables that have different values succeeds and contradicts nothing. -/
theorem Satisfies.separate (satisfied : Satisfies world registry memory env)
    (wellFormed : WellFormed memory) (different : env left ≠ env right) :
    Accepts world registry env (memory.separate registry left right) := by
  rcases separate_cases memory registry left right with ⟨clash, _⟩ | ⟨_, result⟩
  · rcases clash with same | ⟨identity, sameValue⟩
    · exact absurd (satisfied.eq_of_root same) different
    · exact absurd (AbstractValue.eq_of_isIdentityConstant identity (satisfied.known left)
        (sameValue ▸ satisfied.known right)) different
  · rw [result]
    exact ⟨rfl, satisfied.toFits.withApart wellFormed different, satisfied.outside⟩

/-- Excluding a constant that a variable does not have succeeds and contradicts nothing. -/
theorem Satisfies.exclude (legal : table.Legal) (sameTable : registry.table = table)
    (satisfied : Satisfies world registry memory env) (regular : value.Regular)
    (sorted : value.sort? = some (env var).sort) (outside : ¬ value.Contains world (env var)) :
    Accepts world registry env (memory.exclude registry var value) := by
  rcases exclude_cases memory registry var value with
    ⟨same, _⟩ | ⟨other, complement, result⟩ | ⟨_, _, _, result⟩ | result
  · exact absurd (same ▸ satisfied.known var) outside
  · rw [result]
    exact satisfied.narrow legal sameTable
      (AbstractValue.contains_complement complement regular sorted rfl outside)
  · rw [result]
    refine ⟨rfl, ⟨satisfied.declared, satisfied.known, satisfied.equal, satisfied.distinct⟩,
      fun {other excluded} member => ?_⟩
    change excluded ∈ (memory.withExclusion (memory.root var) value).exclusions
      (memory.root other) at member
    rw [exclusions_withExclusion] at member
    split at member
    · rename_i inside
      rw [satisfied.eq_of_root inside]
      rcases mem_appendNew_iff.mp member with old | new
      · exact satisfied.outside old
      · rwa [List.mem_singleton.mp new]
    · exact satisfied.outside member
  · rw [result]
    exact ⟨rfl, satisfied⟩

end Differences

section Assuming

variable {table : ClassTable} {world : World table} {registry : Variables} {memory : Memory}
  {env : Environment} {condition : Condition}

/-- Assuming a condition that holds succeeds and contradicts nothing. Numbers are left out:
they are not compared by identity. -/
theorem Satisfies.assume (legal : table.Legal) (sameTable : registry.table = table)
    (satisfied : Satisfies world registry memory env) (wellFormed : WellFormed memory)
    (discrete : (env condition.left).sort.isFloating = false)
    (typed : ∀ value, condition.right = .constant value →
      value.Regular ∧ value.sort? = some (env condition.left).sort)
    (holds : condition.Holds world env) :
    Accepts world registry env (memory.assume registry condition) := by
  have identity : ¬ (memory.value registry condition.left).isFloating = true := by
    intro floating
    have contradiction :=
      AbstractValue.isFloating_of_contains floating (satisfied.known condition.left)
    rw [discrete] at contradiction
    cases contradiction
  rw [Memory.assume, if_neg identity]
  obtain ⟨left, relation, right⟩ := condition
  cases relation with
  | equal =>
    cases right with
    | var other => exact satisfied.unite legal sameTable wellFormed holds
    | constant value => exact satisfied.narrow legal sameTable holds
  | different =>
    cases right with
    | var other => exact satisfied.separate wellFormed holds
    | constant value =>
      obtain ⟨regular, sorted⟩ := typed value rfl
      exact satisfied.exclude legal sameTable regular sorted holds

end Assuming

section Losing

variable {table : ClassTable} {world : World table} {registry : Variables} {lost : Var → Prop}
  {old new : Memory} {env later : Environment}

/-- The later values differ in lost variables only, which have any value of their
declarations. -/
structure Changes (world : World table) (registry : Variables) (lost : Var → Prop)
    (env later : Environment) : Prop where
  kept : ∀ {var}, ¬ lost var → later var = env var
  declared : ∀ {var}, lost var → (registry.declared var).Contains world (later var)

theorem Fits.forgets (fits : Fits world registry old env) (forgets : Forgets registry lost old new)
    (changes : Changes world registry lost env later) : Fits world registry new later where
  declared var := by
    by_cases gone : lost var
    · exact changes.declared gone
    · rw [changes.kept gone]
      exact fits.declared var
  known var := by
    by_cases gone : lost var
    · rw [forgets.lostValue gone]
      exact changes.declared gone
    · rw [forgets.value gone, changes.kept gone]
      exact fits.known var
  equal {left right} same := by
    by_cases leftGone : lost left
    · rw [forgets.alone leftGone same]
    · by_cases rightGone : lost right
      · have flipped : new.areEqual right left = true := by
          rw [areEqual_iff] at same ⊢
          exact same.symm
        rw [forgets.alone rightGone flipped]
      · rw [changes.kept leftGone, changes.kept rightGone]
        exact fits.equal ((forgets.equal leftGone rightGone).mp same)
  distinct {left right} apart := by
    by_cases leftGone : lost left
    · exact absurd apart (forgets.unrelated leftGone)
    · by_cases rightGone : lost right
      · rw [areDistinct_comm] at apart
        exact absurd apart (forgets.unrelated rightGone)
      · rw [changes.kept leftGone, changes.kept rightGone]
        exact fits.distinct ((forgets.distinct leftGone rightGone).mp apart)

theorem Satisfies.forgets (satisfied : Satisfies world registry old env)
    (forgets : Forgets registry lost old new) (changes : Changes world registry lost env later) :
    Satisfies world registry new later where
  toFits := satisfied.toFits.forgets forgets changes
  outside {var value} member := by
    by_cases gone : lost var
    · rw [forgets.unrestricted gone] at member
      cases member
    · rw [forgets.exclusions gone] at member
      rw [changes.kept gone]
      exact satisfied.outside member

end Losing

end Memory

end PauseFlow
