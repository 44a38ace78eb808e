import PauseFlow.Proofs.Memory.Acceptance
import PauseFlow.Proofs.Memory.Numbering

/-! Assuming one equality or inequality of integers. It is accepted if some numbers fit the memory
and the condition, and what the memory learns from it is the condition, with one gap: which numbers
two variables hold is no longer asked once they are recorded to differ. -/
namespace PauseFlow

/-- The number that an operand of a comparison of integers stands for. -/
def Operand.number? (numbers : Var → Int) : Operand → Option Int
  | .var other => some (numbers other)
  | .constant value => value.number?

namespace Condition

/-- The comparison is true of the numbers. -/
def HoldsFor (numbers : Var → Int) (condition : Condition) : Prop :=
  condition.relation.Means (condition.right.number? numbers = some (numbers condition.left))

def comparesVars (condition : Condition) : Bool :=
  match condition.right with
  | .var _ => true
  | .constant _ => false

/-- An inequality of two variables. -/
def separates (condition : Condition) : Bool :=
  condition.relation = .different && condition.comparesVars

section Meaning

variable {numbers : Var → Int} {left right : Var} {number : Int}

@[simp] theorem holdsFor_equal_var :
    HoldsFor numbers ⟨left, .equal, .var right⟩ ↔ numbers left = numbers right := by
  simp [HoldsFor, Relation.Means, Operand.number?, eq_comm]

@[simp] theorem holdsFor_different_var :
    HoldsFor numbers ⟨left, .different, .var right⟩ ↔ numbers left ≠ numbers right := by
  simp [HoldsFor, Relation.Means, Operand.number?, eq_comm]

@[simp] theorem holdsFor_equal_number :
    HoldsFor numbers ⟨left, .equal, .constant (.int number)⟩ ↔ numbers left = number := by
  simp [HoldsFor, Relation.Means, Operand.number?, eq_comm]

@[simp] theorem holdsFor_different_number :
    HoldsFor numbers ⟨left, .different, .constant (.int number)⟩ ↔ numbers left ≠ number := by
  simp [HoldsFor, Relation.Means, Operand.number?, eq_comm]

end Meaning

/-- A comparison of a variable declared an integer with another one or with a number. -/
inductive OverInts (registry : Variables) : Condition → Prop where
  | var {left right : Var} (relation : Relation)
      (leftInt : registry.declared left = .ofType (.primitive .int))
      (rightInt : registry.declared right = .ofType (.primitive .int)) :
      OverInts registry ⟨left, relation, .var right⟩
  | number {left : Var} (relation : Relation) (number : Int)
      (leftInt : registry.declared left = .ofType (.primitive .int)) :
      OverInts registry ⟨left, relation, .constant (.int number)⟩

theorem OverInts.of_separates {registry : Variables} {condition : Condition}
    (overInts : condition.OverInts registry) (separates : condition.separates = true) :
    ∃ left right, condition = ⟨left, .different, .var right⟩ ∧
      registry.declared left = .ofType (.primitive .int) ∧
      registry.declared right = .ofType (.primitive .int) := by
  cases overInts with
  | number relation number leftInt =>
    rw [Condition.separates, comparesVars, Bool.and_false] at separates
    cases separates
  | @var left right relation leftInt rightInt =>
    cases relation with
    | equal => cases separates
    | different => exact ⟨left, right, rfl, leftInt, rightInt⟩

end Condition

namespace Memory

open AbstractValue

variable {registry : Variables} {memory after : Memory} {left right : Var} {number : Int}
  {condition : Condition}

/-- What a memory that was told a condition knows in addition. -/
structure Learns (memory : Memory) (condition : Condition) (after : Memory) : Prop where
  integral : after.Integral
  numbers : ∀ numbers, after.FitsNumbers numbers ↔
    memory.FitsNumbers numbers ∧ (condition.separates = false → condition.HoldsFor numbers)
  differences : ∀ numbers, after.FitsDifferences numbers ↔
    memory.FitsDifferences numbers ∧ (condition.comparesVars = true → condition.HoldsFor numbers)

/-- Some numbers agree with a memory and a condition, as far as the memory can tell. -/
structure Admits (memory : Memory) (condition : Condition) : Prop where
  numbers : ∃ numbers, memory.FitsNumbers numbers ∧ condition.HoldsFor numbers
  differences : ∃ numbers, memory.FitsDifferences numbers ∧
    (condition.comparesVars = true → condition.HoldsFor numbers)

/-- An answer to a condition: yes if numbers admit it, and then with a memory that learnt it. -/
structure Answers (memory : Memory) (condition : Condition) (answer : Bool × Memory) : Prop where
  accepts : memory.Admits condition → answer.1 = true
  learns : answer.1 = true → memory.Learns condition answer.2

section Known

variable (integral : memory.Integral) (wellFormed : WellFormed memory)
  (leftInt : registry.declared left = .ofType (.primitive .int))

include integral wellFormed leftInt

private theorem overlap_of_possible (rightInt : registry.declared right = .ofType (.primitive .int))
    (possible : memory.overlap registry left right ≠ .bottom) :
    (memory.overlap registry left right).IsInt ∧ ∀ number,
      memory.overlap registry left right = .int number ↔
        memory.facts.get? (memory.root left) = some (.int number) ∨
          memory.facts.get? (memory.root right) = some (.int number) := by
  simp only [← wellFormed.value_eq_int_iff leftInt, ← wellFormed.value_eq_int_iff rightInt]
  rcases IsInt.meet_cases registry.table (integral.value wellFormed leftInt)
    (integral.value wellFormed rightInt) with ⟨empty, _⟩ | ⟨_, known⟩
  · exact absurd empty possible
  · exact known

private theorem learns_unite (rightInt : registry.declared right = .ofType (.primitive .int))
    (accepted : (memory.unite registry left right).1 = true) :
    memory.Learns ⟨left, .equal, .var right⟩ (memory.unite registry left right).2 := by
  rcases unite_cases memory registry left right with ⟨same, result⟩ | ⟨_, _, result⟩ |
    ⟨different, _, possible, _, _, result⟩
  · rw [result]
    -- Within a class the condition is known already.
    have within : ∀ {numbers : Var → Int}, (∀ var, numbers (memory.root var) = numbers var) →
        Condition.HoldsFor numbers ⟨left, .equal, .var right⟩ := by
      intro numbers equal
      rw [Condition.holdsFor_equal_var, ← equal left, same, equal right]
    refine ⟨integral, fun numbers => ?_, fun numbers => ?_⟩
    · exact (and_iff_left_of_imp fun fits _ => within fits.equal).symm
    · exact (and_iff_left_of_imp fun fits _ => within fits.equal).symm
  · rw [result] at accepted
    cases accepted
  · rw [result]
    have leftTop := root_top wellFormed.grounded left
    have rightTop := root_top wellFormed.grounded right
    obtain ⟨isInt, known⟩ := overlap_of_possible integral wellFormed leftInt rightInt possible
    refine ⟨integral.merged _ _ isInt, fun numbers => ?_, fun numbers => ?_⟩
    · rw [fitsNumbers_merged_iff wellFormed different leftTop rightTop known]
      refine and_congr_right fun fits => ?_
      rw [fits.equal, fits.equal]
      simp [Condition.separates]
    · rw [fitsDifferences_merged_iff wellFormed different leftTop rightTop]
      refine and_congr_right fun fits => ?_
      rw [fits.equal, fits.equal]
      simp [Condition.comparesVars]

/-- Known numbers, excluded ones and recorded differences are all that keeps two classes apart. -/
theorem unite_accepted_of_admits (rightInt : registry.declared right = .ofType (.primitive .int))
    (admits : memory.Admits ⟨left, .equal, .var right⟩) :
    (memory.unite registry left right).1 = true := by
  obtain ⟨⟨numbers, fits, same⟩, differing, differs, joined⟩ := admits
  rw [Condition.holdsFor_equal_var] at same
  have leftAgrees : ∀ number, memory.value registry left = .int number → numbers left = number :=
    fun _ => fits.of_value wellFormed leftInt
  have rightAgrees : ∀ number, memory.value registry right = .int number →
      numbers left = number := fun _ known => same.trans (fits.of_value wellFormed rightInt known)
  rw [unite_accepted_iff]
  refine .inr ⟨fun apart => ?_, ?_⟩
  · apply differs.apart _ _ apart
    rw [differs.equal, differs.equal]
    exact Condition.holdsFor_equal_var.mp (joined rfl)
  · rcases IsInt.meet_cases registry.table (integral.value wellFormed leftInt)
      (integral.value wellFormed rightInt) with ⟨_, first, second, leftKnown, rightKnown, clash⟩ |
        ⟨possible, isInt, known⟩
    · exact absurd ((leftAgrees first leftKnown).symm.trans (rightAgrees second rightKnown)) clash
    · have agrees : ∀ number, memory.overlap registry left right = .int number →
          numbers left = number := fun number met =>
        ((known number).mp met).elim (leftAgrees number) (rightAgrees number)
      refine ⟨possible, fits.not_isExcluded isInt agrees, fits.not_isExcluded isInt ?_⟩
      intro number met
      rw [← same]
      exact agrees number met

private theorem learns_narrow (accepted : (memory.narrow registry left (.int number)).1 = true) :
    memory.Learns ⟨left, .equal, .constant (.int number)⟩
      (memory.narrow registry left (.int number)).2 := by
  rcases narrow_cases memory registry left (.int number) with ⟨_, result⟩ | ⟨possible, _, result⟩
  · rw [result] at accepted
    cases accepted
  · have known : memory.narrowed registry left (.int number) = .int number :=
      (Definite.meet (.primitive _ _) _).resolve_right possible
    have agree : ∀ old, memory.facts.get? (memory.root left) = some (.int old) → old = number := by
      intro old recorded
      rw [← wellFormed.value_eq_int_iff leftInt] at recorded
      rw [narrowed, recorded] at possible
      by_contra different
      exact possible (by simp [AbstractValue.int, AbstractValue.meet, different])
    rw [result, known]
    refine ⟨integral.withFact _ (.known number), fun numbers => ?_, fun numbers => ?_⟩
    · rw [fitsNumbers_withFact_iff agree]
      refine and_congr_right fun fits => ?_
      rw [fits.equal]
      simp [Condition.separates]
    · rw [fitsDifferences_withFact_iff]
      simp [Condition.comparesVars]

private theorem narrow_accepted_of_admits
    (admits : memory.Admits ⟨left, .equal, .constant (.int number)⟩) :
    (memory.narrow registry left (.int number)).1 = true := by
  obtain ⟨⟨numbers, fits, same⟩, _⟩ := admits
  rw [Condition.holdsFor_equal_number] at same
  rw [narrow_accepted_iff]
  rcases IsInt.meet_cases registry.table (integral.value wellFormed leftInt) (.known number) with
    ⟨_, first, second, leftKnown, here, clash⟩ | ⟨possible, isInt, known⟩
  · cases here
    exact absurd ((fits.of_value wellFormed leftInt leftKnown).symm.trans same) clash
  · refine ⟨possible, fits.not_isExcluded isInt fun met narrowed => ?_⟩
    rcases (known met).mp narrowed with leftKnown | here
    · exact fits.of_value wellFormed leftInt leftKnown
    · cases here
      exact same

/-- Two variables are told apart unless one class or one number is known for both by now. -/
theorem separate_accepted_iff_forces
    (rightInt : registry.declared right = .ofType (.primitive .int)) :
    (memory.separate registry left right).1 = true ↔ ¬ memory.Forces left right := by
  rw [separate_accepted_iff, Forces, not_or]
  refine and_congr_right fun different => not_congr ?_
  constructor
  · rintro ⟨identity, same⟩
    obtain ⟨number, known⟩ :=
      (integral.value wellFormed leftInt).eq_int_of_isIdentityConstant identity
    exact ⟨number, (wellFormed.value_eq_int_iff leftInt number).mp known,
      (wellFormed.value_eq_int_iff rightInt number).mp (same.symm.trans known)⟩
  · rintro ⟨number, leftKnown, rightKnown⟩
    rw [(wellFormed.value_eq_int_iff leftInt number).mpr leftKnown,
      (wellFormed.value_eq_int_iff rightInt number).mpr rightKnown]
    exact ⟨rfl, rfl⟩

end Known

private theorem learns_exclude (integral : memory.Integral)
    (accepted : (memory.exclude registry left (.int number)).1 = true) :
    memory.Learns ⟨left, .different, .constant (.int number)⟩
      (memory.exclude registry left (.int number)).2 := by
  rw [exclude_accepted_iff memory registry left rfl] at accepted
  rw [exclude_of_plain rfl rfl accepted.1]
  refine ⟨integral, fun numbers => ?_, fun numbers => ?_⟩
  · rw [fitsNumbers_withExclusion_iff]
    refine and_congr_right fun fits => ?_
    rw [fits.equal]
    simp [Condition.separates, Condition.comparesVars]
  · rw [fitsDifferences_withExclusion_iff]
    simp [Condition.comparesVars]

private theorem exclude_accepted_of_admits (wellFormed : WellFormed memory)
    (leftInt : registry.declared left = .ofType (.primitive .int))
    (admits : memory.Admits ⟨left, .different, .constant (.int number)⟩) :
    (memory.exclude registry left (.int number)).1 = true := by
  obtain ⟨⟨numbers, fits, differ⟩, _⟩ := admits
  rw [Condition.holdsFor_different_number] at differ
  rw [exclude_accepted_iff memory registry left rfl]
  exact ⟨fun known => differ (fits.of_value wellFormed leftInt known), nofun⟩

private theorem learns_separate (integral : memory.Integral)
    (accepted : (memory.separate registry left right).1 = true) :
    memory.Learns ⟨left, .different, .var right⟩ (memory.separate registry left right).2 := by
  rcases separate_cases memory registry left right with ⟨_, result⟩ | ⟨_, result⟩
  · rw [result] at accepted
    cases accepted
  · rw [result]
    refine ⟨integral, fun numbers => ?_, fun numbers => ?_⟩
    · rw [fitsNumbers_withApart_iff]
      simp [Condition.separates, Condition.comparesVars]
    · rw [fitsDifferences_withApart_iff]
      refine and_congr_right fun fits => ?_
      rw [fits.equal, fits.equal]
      simp [Condition.comparesVars]

theorem Integral.answers (integral : memory.Integral) (wellFormed : WellFormed memory)
    (overInts : condition.OverInts registry) :
    memory.Answers condition (memory.assume registry condition) := by
  cases overInts with
  | @var left right relation leftInt rightInt =>
    have discrete := (integral.value wellFormed leftInt).not_isFloating
    cases relation with
    | equal =>
      simp only [assume, discrete, Bool.false_eq_true, if_false]
      exact ⟨unite_accepted_of_admits integral wellFormed leftInt rightInt,
        learns_unite integral wellFormed leftInt rightInt⟩
    | different =>
      simp only [assume, discrete, Bool.false_eq_true, if_false]
      refine ⟨fun admits => ?_, learns_separate integral⟩
      obtain ⟨numbers, fits, differ⟩ := admits.numbers
      apply (separate_accepted_iff_forces integral wellFormed leftInt rightInt).mpr
      exact fun forces => Condition.holdsFor_different_var.mp differ (fits.eq_of_forces forces)
  | @number left relation number leftInt =>
    have discrete := (integral.value wellFormed leftInt).not_isFloating
    cases relation with
    | equal =>
      simp only [assume, discrete, Bool.false_eq_true, if_false]
      exact ⟨narrow_accepted_of_admits integral wellFormed leftInt,
        learns_narrow integral wellFormed leftInt⟩
    | different =>
      simp only [assume, discrete, Bool.false_eq_true, if_false]
      exact ⟨exclude_accepted_of_admits wellFormed leftInt, learns_exclude integral⟩

theorem issued_of_overInts (overInts : condition.OverInts registry) :
    ∀ var ∈ (Operation.assume condition).operands, registry.Issued var := by
  have issued : ∀ {var}, registry.declared var = .ofType (.primitive .int) →
      registry.Issued var := by
    intro var declared
    by_contra missing
    rw [Variables.declared_of_not_issued missing] at declared
    cases declared
  cases overInts with
  | var relation leftInt rightInt =>
    simp [Operation.operands, operandVars, issued leftInt, issued rightInt]
  | number relation number leftInt => simp [Operation.operands, operandVars, issued leftInt]

/-- What is accepted has numbers: those of the memory that follows, or, for a difference of
variables, generic ones of the memory before it. -/
theorem Integral.admits_of_accepted (integral : memory.Integral) (arises : Arises registry memory)
    (overInts : condition.OverInts registry)
    (accepted : (memory.assume registry condition).1 = true) : memory.Admits condition := by
  have learns := (integral.answers arises.wellFormed overInts).learns accepted
  have later : Arises registry (memory.assume registry condition).2 :=
    arises.operate (.assume condition) (issued_of_overInts overInts)
  constructor
  · cases separates : condition.separates with
    | false =>
      obtain ⟨numbers, fits, _⟩ := later.settled.exists_generic later.wellFormed
      obtain ⟨earlier, holds⟩ := (learns.numbers numbers).mp fits
      exact ⟨numbers, earlier, holds separates⟩
    | true =>
      obtain ⟨numbers, fits, generic⟩ := arises.settled.exists_generic arises.wellFormed
      obtain ⟨left, right, rfl, leftInt, rightInt⟩ := overInts.of_separates separates
      have discrete := (integral.value arises.wellFormed leftInt).not_isFloating
      simp only [assume, discrete, Bool.false_eq_true, if_false] at accepted
      rw [separate_accepted_iff_forces integral arises.wellFormed leftInt rightInt] at accepted
      refine ⟨numbers, fits, Condition.holdsFor_different_var.mpr fun same => ?_⟩
      exact accepted (generic same)
  · obtain ⟨numbers, fits⟩ := later.wellFormed.exists_differences
    exact ⟨numbers, (learns.differences numbers).mp fits⟩

end Memory

end PauseFlow
