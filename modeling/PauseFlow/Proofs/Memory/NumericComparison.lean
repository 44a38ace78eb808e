import PauseFlow.Proofs.Abstract.Widening
import PauseFlow.Proofs.Memory.Acceptance
import PauseFlow.Proofs.Memory.Refusal
import PauseFlow.Proofs.Memory.Typing

namespace PauseFlow

namespace Relation

theorem holds_iff_means (relation : Relation) (same : Bool) :
    relation.holds same = true ↔ relation.Means (same = true) := by
  cases relation <;> cases same <;> simp [holds, Means]

/-- The answer to a comparison of two numbers as far as they are known: a NaN is unlike any number,
and otherwise everything is possible unless both are known. -/
def compares (relation : Relation) : (left right : Option UInt64) → Bool
  | some left, some right => relation.holds (Binary64.numericallyEqual left right)
  | some number, none => !Binary64.isNaN number || relation.holds false
  | none, some number => !Binary64.isNaN number || relation.holds false
  | none, none => true

variable {relation : Relation} {left right : UInt64}

/-- A comparison that is true of two numbers is possible if one of them is known. -/
theorem possible_of_means (means : relation.Means (Binary64.numericallyEqual left right = true))
    {number : UInt64} (side : number = left ∨ number = right) :
    (!Binary64.isNaN number || relation.holds false) = true := by
  rw [Bool.or_eq_true, Bool.not_eq_true', or_iff_not_imp_left, Bool.not_eq_false]
  intro isNaN
  have differ : Binary64.numericallyEqual left right = false := by
    rcases side with rfl | rfl <;> simp [Binary64.numericallyEqual, isNaN]
  rwa [differ, ← holds_iff_means] at means

/-- A comparison that is true of two numbers is possible whatever is known of them. -/
theorem compares_of_means {leftKnown rightKnown : Option UInt64}
    (leftFits : ∀ number ∈ leftKnown, number = left)
    (rightFits : ∀ number ∈ rightKnown, number = right)
    (means : relation.Means (Binary64.numericallyEqual left right = true)) :
    relation.compares leftKnown rightKnown = true := by
  cases leftKnown with
  | none =>
    cases rightKnown with
    | none => rfl
    | some number => exact possible_of_means means (.inr (rightFits number rfl))
  | some number =>
    cases rightKnown with
    | none => exact possible_of_means means (.inl (leftFits number rfl))
    | some other =>
      obtain rfl := leftFits number rfl
      obtain rfl := rightFits other rfl
      exact (relation.holds_iff_means _).mpr means

end Relation

/-- The variable is declared with a floating-point kind. -/
structure Variables.Numeric (registry : Variables) (kind : PrimitiveKind) (var : Var) : Prop where
  floating : kind.isFloating = true
  declared : registry.declared var = .ofType (.primitive kind)

/-- The bits that an operand stands for. -/
def Operand.bits? (patterns : Var → UInt64) : Operand → Option UInt64
  | .var other => some (patterns other)
  | .constant (.primitive _ (some (.floating bits))) => some bits
  | .constant _ => none

namespace Condition

/-- The comparison is true of the numbers that the bits stand for. -/
def HoldsNumerically (kind : PrimitiveKind) (patterns : Var → UInt64) (condition : Condition) :
    Prop :=
  condition.relation.Means (∃ bits ∈ condition.right.bits? patterns,
    kind.NumericallyEqual (patterns condition.left) bits)

section Meaning

variable {kind other : PrimitiveKind} {patterns : Var → UInt64} {left right : Var}
  {relation : Relation} {bits : UInt64}

private theorem holdsNumerically_var : HoldsNumerically kind patterns ⟨left, relation, .var right⟩ ↔
    relation.Means (kind.NumericallyEqual (patterns left) (patterns right)) := by
  simp [HoldsNumerically, Operand.bits?]

private theorem holdsNumerically_pattern :
    HoldsNumerically kind patterns ⟨left, relation, .constant (.pattern other bits)⟩ ↔
      relation.Means (kind.NumericallyEqual (patterns left) bits) := by
  simp [HoldsNumerically, Operand.bits?, AbstractValue.pattern]

end Meaning

/-- A comparison of a variable declared with a floating-point kind with another one or with a
pattern of that kind. -/
inductive OverPatterns (registry : Variables) (kind : PrimitiveKind) : Condition → Prop where
  | var {left right : Var} (relation : Relation) (leftNumeric : registry.Numeric kind left)
      (rightNumeric : registry.Numeric kind right) :
      OverPatterns registry kind ⟨left, relation, .var right⟩
  | pattern {left : Var} {bits : UInt64} (relation : Relation)
      (leftNumeric : registry.Numeric kind left) (has : kind.HasPattern bits) :
      OverPatterns registry kind ⟨left, relation, .constant (.pattern kind bits)⟩

theorem OverPatterns.left {registry : Variables} {kind : PrimitiveKind} {condition : Condition}
    (compared : condition.OverPatterns registry kind) : registry.Numeric kind condition.left := by
  cases compared <;> assumption

end Condition

namespace Memory

open AbstractValue

variable {registry : Variables} {memory : Memory} {kind other : PrimitiveKind} {var : Var}
  {bits : UInt64} {patterns : Var → UInt64} {condition : Condition}

theorem assumeFloating_var (memory : Memory) (registry : Variables) (left right : Var)
    (relation : Relation) :
    memory.assumeFloating registry ⟨left, relation, .var right⟩ =
      (relation.compares (memory.value registry left).floatingConstant
        (memory.value registry right).floatingConstant, memory) := by
  unfold assumeFloating operandValue
  dsimp only
  cases (memory.value registry left).floatingConstant with
  | none =>
    cases (memory.value registry right).floatingConstant with
    | none => rfl
    | some number => cases isNaN : Binary64.isNaN number <;> simp [Relation.compares, isNaN]
  | some number =>
    cases (memory.value registry right).floatingConstant with
    | none => cases isNaN : Binary64.isNaN number <;> simp [Relation.compares, isNaN]
    | some other => rfl

section Constants

variable {left : Var} {relation : Relation} {constant : AbstractValue} {number : UInt64}
  (known : constant.floatingConstant = some number)

include known

/-- A comparison with a constant is decided if the variable is known, too, or if the constant is a
NaN, and teaches nothing about bits if it is zero. -/
theorem assumeFloating_constant_of_decided
    (decided : (memory.value registry left).floatingConstant ≠ none ∨
      Binary64.isNaN number = true ∨ Binary64.isZero number = true) :
    memory.assumeFloating registry ⟨left, relation, .constant constant⟩ =
      (relation.compares (memory.value registry left).floatingConstant (some number), memory) := by
  unfold assumeFloating operandValue
  simp only [known]
  cases own : (memory.value registry left).floatingConstant with
  | some leftNumber => rfl
  | none =>
    simp only [own, ne_eq, not_true_eq_false, false_or] at decided
    cases isNaN : Binary64.isNaN number with
    | true => simp [Relation.compares, isNaN]
    | false => simp [Relation.compares, isNaN, decided.resolve_left (by simp [isNaN])]

/-- Any other constant fixes the bits, or rules them out. -/
theorem assumeFloating_constant_of_open
    (unknown : (memory.value registry left).floatingConstant = none)
    (proper : Binary64.isNaN number = false) (nonzero : Binary64.isZero number = false) :
    memory.assumeFloating registry ⟨left, relation, .constant constant⟩ =
      match relation with
      | .equal => memory.narrow registry left constant
      | .different => memory.exclude registry left constant := by
  unfold assumeFloating operandValue
  simp only [known, unknown]
  cases relation <;> simp [proper, nonzero]

end Constants

/-- Bits of the kinds of the variables that agree with the classes, the known values and the
excluded constants. -/
structure FitsPatterns (registry : Variables) (memory : Memory) (patterns : Var → UInt64) :
    Prop where
  ofKind : ∀ {kind var}, registry.Numeric kind var → kind.HasPattern (patterns var)
  equal : ∀ {left right}, memory.areEqual left right = true → patterns left = patterns right
  known : ∀ {kind var content}, registry.Numeric kind var →
    memory.value registry var = .primitive kind (some content) →
    content = .floating (patterns var)
  outside : ∀ {kind var}, registry.Numeric kind var →
    AbstractValue.pattern kind (patterns var) ∉ memory.exclusions (memory.root var)

/-- Of a floating-point variable at most the content becomes known. -/
theorem Arises.numeric_value (arises : Arises registry memory)
    (numeric : registry.Numeric kind var) :
    ∃ content, memory.value registry var = .primitive kind content := by
  have typed := arises.typed numeric.declared
  generalize memory.value registry var = known at typed
  cases typed with
  | primitive kind content => exact ⟨content, rfl⟩

private theorem Arises.assume_numeric (arises : Arises registry memory)
    (numeric : registry.Numeric kind condition.left) :
    memory.assume registry condition = memory.assumeFloating registry condition := by
  obtain ⟨content, value⟩ := arises.numeric_value numeric
  have floating : (memory.value registry condition.left).isFloating = true := by
    rw [value]
    exact numeric.floating
  rw [assume, if_pos floating]

private theorem complement?_pattern (kind : PrimitiveKind) (bits : UInt64) :
    complement? (pattern kind bits) = none := by
  cases kind <;> rfl

/-- An unknown number can be narrowed to any bits of its kind that are not excluded. -/
theorem narrow_unknown (unknown : memory.value registry var = .primitive kind none) :
    memory.narrow registry var (.pattern other bits) =
      if kind = other ∧ .pattern kind bits ∉ memory.exclusions (memory.root var) then
        (true, memory.withFact (memory.root var) (.pattern kind bits))
      else (false, memory) := by
  have narrowed : memory.narrowed registry var (.pattern other bits) =
      if kind = other then .pattern kind bits else .bottom := by
    rw [Memory.narrowed, unknown, meet_unknown_pattern]
  have excluded_iff : memory.isExcluded (memory.root var) (.pattern kind bits) = true ↔
      .pattern kind bits ∈ memory.exclusions (memory.root var) := by
    have isConstant : (pattern kind bits).isConstant = true := rfl
    rw [isExcluded, isConstant, Bool.true_and, decide_eq_true_iff]
  rcases narrow_cases memory registry var (.pattern other bits) with
    ⟨clash, result⟩ | ⟨possible, free, result⟩
  · rw [result, if_neg]
    rintro ⟨same, free⟩
    rw [narrowed, if_pos same] at clash
    exact clash.elim (by simp [pattern]) (mt excluded_iff.mp free)
  · have same : kind = other := by
      by_contra different
      rw [narrowed, if_neg different] at possible
      exact possible rfl
    rw [narrowed, if_pos same] at free result
    rw [result, if_pos ⟨same, mt excluded_iff.mpr (by simp [free])⟩]

/-- Bits can be excluded of an unknown number. -/
theorem exclude_unknown (unknown : memory.value registry var = .primitive kind none) :
    memory.exclude registry var (.pattern other bits) =
      (true, memory.withExclusion (memory.root var) (.pattern other bits)) := by
  refine exclude_of_plain rfl (complement?_pattern other bits) ?_
  rw [unknown]
  simp [pattern]

namespace FitsPatterns

variable (fits : FitsPatterns registry memory patterns)

include fits

private theorem eq_of_root {left right : Var} (same : memory.root left = memory.root right) :
    patterns left = patterns right :=
  fits.equal ((areEqual_iff memory left right).mpr same)

/-- A number that is known is the one that the bits stand for. -/
theorem floatingConstant_eq (arises : Arises registry memory)
    (numeric : registry.Numeric kind var) :
    ∀ number ∈ (memory.value registry var).floatingConstant,
      number = kind.widen (patterns var) := by
  intro number known
  obtain ⟨content, value⟩ := arises.numeric_value numeric
  rw [value] at known
  obtain ⟨own, rfl, _, rfl⟩ := pattern_of_floatingConstant known
  have same := fits.known numeric value
  cases same
  rfl

/-- The content is known as bits, if at all. -/
theorem value_of_unknown (arises : Arises registry memory) (numeric : registry.Numeric kind var)
    (unknown : (memory.value registry var).floatingConstant = none) :
    memory.value registry var = .primitive kind none := by
  obtain ⟨content, value⟩ := arises.numeric_value numeric
  cases content with
  | none => exact value
  | some known =>
    obtain rfl := fits.known numeric value
    have found := floatingConstant_pattern (fits.ofKind numeric)
    change memory.value registry var = .pattern kind (patterns var) at value
    rw [value, found] at unknown
    cases unknown

private theorem withFact (kind : PrimitiveKind) (var : Var) :
    FitsPatterns registry (memory.withFact (memory.root var) (.pattern kind (patterns var)))
      patterns where
  ofKind := fits.ofKind
  equal := fits.equal
  known {otherKind other content} otherNumeric value := by
    rw [value_withFact] at value
    split at value
    · rename_i here
      cases value
      rw [fits.eq_of_root here]
    · exact fits.known otherNumeric value
  outside := fits.outside

private theorem withExclusion (different : patterns var ≠ bits) :
    FitsPatterns registry (memory.withExclusion (memory.root var) (.pattern kind bits))
      patterns where
  ofKind := fits.ofKind
  equal := fits.equal
  known := fits.known
  outside {otherKind other} otherNumeric member := by
    rw [exclusions_withExclusion] at member
    split at member
    · rename_i here
      rcases mem_appendNew_iff.mp member with old | added
      · exact fits.outside otherNumeric (here ▸ old)
      · have same := List.mem_singleton.mp added
        cases same
        exact different (fits.eq_of_root here).symm
    · exact fits.outside otherNumeric member

end FitsPatterns

/-- Where the bits of both sides are known, the answer is that of the numbers. -/
theorem assume_of_known_numbers {left right : UInt64} (leftHas : kind.HasPattern left)
    (rightHas : other.HasPattern right)
    (leftKnown : memory.value registry condition.left = .pattern kind left)
    (rightKnown : memory.operandValue registry condition.right = .pattern other right) :
    memory.assume registry condition = (condition.relation.holds
      (Binary64.numericallyEqual (kind.widen left) (other.widen right)), memory) := by
  have floating : (memory.value registry condition.left).isFloating = true := by
    rw [leftKnown]
    exact leftHas.isFloating
  rw [assume, if_pos floating]
  unfold assumeFloating
  simp only [leftKnown, rightKnown, floatingConstant_pattern leftHas,
    floatingConstant_pattern rightHas]

section OneKind

variable (arises : Arises registry memory)

include arises

/-- Bits that make a comparison of two variables true are kept: nothing is learnt from it. -/
theorem FitsPatterns.assume_var (fits : FitsPatterns registry memory patterns) {left right : Var}
    (leftNumeric : registry.Numeric kind left) (rightNumeric : registry.Numeric kind right)
    {relation : Relation}
    (means : relation.Means (kind.NumericallyEqual (patterns left) (patterns right))) :
    (memory.assume registry ⟨left, relation, .var right⟩).1 = true ∧
      FitsPatterns registry (memory.assume registry ⟨left, relation, .var right⟩).2 patterns := by
  rw [← PrimitiveKind.numericallyEqual_widen_iff (fits.ofKind leftNumeric)
    (fits.ofKind rightNumeric)] at means
  rw [arises.assume_numeric leftNumeric, assumeFloating_var]
  exact ⟨Relation.compares_of_means (fits.floatingConstant_eq arises leftNumeric)
    (fits.floatingConstant_eq arises rightNumeric) means, fits⟩

/-- Bits that make a comparison with a pattern true are kept: of what is not known yet, only the
bits that make it false are ruled out. -/
theorem FitsPatterns.assume_pattern (fits : FitsPatterns registry memory patterns) {left : Var}
    (leftNumeric : registry.Numeric kind left) (has : kind.HasPattern bits) {relation : Relation}
    (means : relation.Means (kind.NumericallyEqual (patterns left) bits)) :
    (memory.assume registry ⟨left, relation, .constant (.pattern kind bits)⟩).1 = true ∧
      FitsPatterns registry
        (memory.assume registry ⟨left, relation, .constant (.pattern kind bits)⟩).2 patterns := by
  have known := floatingConstant_pattern has
  rw [arises.assume_numeric leftNumeric]
  by_cases decided : (memory.value registry left).floatingConstant ≠ none ∨
      Binary64.isNaN (kind.widen bits) = true ∨ Binary64.isZero (kind.widen bits) = true
  · rw [← PrimitiveKind.numericallyEqual_widen_iff (fits.ofKind leftNumeric) has] at means
    rw [assumeFloating_constant_of_decided known decided]
    exact ⟨Relation.compares_of_means (fits.floatingConstant_eq arises leftNumeric)
      (fun _ same => (Option.mem_some.mp same).symm) means, fits⟩
  · simp only [not_or, not_not, Bool.not_eq_true] at decided
    obtain ⟨unknown, proper, nonzero⟩ := decided
    have value := fits.value_of_unknown arises leftNumeric unknown
    rw [assumeFloating_constant_of_open known unknown proper nonzero]
    rw [← Bool.not_eq_true, PrimitiveKind.isNaN_widen_iff has] at proper
    rw [← Bool.not_eq_true, PrimitiveKind.isZero_widen_iff has] at nonzero
    cases relation with
    | equal =>
      obtain ⟨_, _, same | ⟨_, zero⟩⟩ := means
      · subst same
        dsimp only
        rw [narrow_unknown value, if_pos ⟨rfl, fits.outside leftNumeric⟩]
        exact ⟨rfl, fits.withFact kind left⟩
      · exact absurd zero nonzero
    | different =>
      have different : patterns left ≠ bits := by
        rintro rfl
        exact means ⟨proper, proper, .inl rfl⟩
      dsimp only
      rw [exclude_unknown value]
      exact ⟨rfl, fits.withExclusion different⟩

/-- Numbers of one kind are compared as numbers: bits that fit the memory and make a comparison
true are never lost, and where the bits of both sides are known, the answer is the numeric one and
nothing is learnt. -/
theorem Arises.compare_numerically (compared : condition.OverPatterns registry kind) :
    (∀ patterns, FitsPatterns registry memory patterns →
      condition.HoldsNumerically kind patterns →
      (memory.assume registry condition).1 = true ∧
        FitsPatterns registry (memory.assume registry condition).2 patterns) ∧
    ∀ left right, kind.HasPattern left → kind.HasPattern right →
      memory.value registry condition.left = .pattern kind left →
      memory.operandValue registry condition.right = .pattern kind right →
      ((memory.assume registry condition).1 = true ↔
        condition.relation.Means (kind.NumericallyEqual left right)) ∧
      (memory.assume registry condition).2 = memory := by
  refine ⟨fun patterns fits holds => ?_,
    fun left right leftHas rightHas leftKnown rightKnown => ?_⟩
  · cases compared with
    | var relation leftNumeric rightNumeric =>
      rw [Condition.holdsNumerically_var] at holds
      exact fits.assume_var arises leftNumeric rightNumeric holds
    | pattern relation leftNumeric has =>
      rw [Condition.holdsNumerically_pattern] at holds
      exact fits.assume_pattern arises leftNumeric has holds
  · rw [assume_of_known_numbers leftHas rightHas leftKnown rightKnown]
    refine ⟨?_, rfl⟩
    rw [Relation.holds_iff_means, PrimitiveKind.numericallyEqual_widen_iff leftHas rightHas]

end OneKind

private theorem fitsPatterns_empty
    (ofKind : ∀ {kind var}, registry.Numeric kind var → kind.HasPattern (patterns var)) :
    FitsPatterns registry .empty patterns where
  ofKind := ofKind
  equal same := congrArg patterns (of_decide_eq_true same)
  known numeric value := by
    have declared : Memory.empty.value registry _ = .ofType (.primitive _) := numeric.declared
    rw [declared] at value
    cases value
  outside _ member := by cases member

def twoFloats : Variables :=
  let (registry, _) :=
    (Variables.ofTable .small).request (.localName "x") (.ofType (.primitive .float))
  (registry.request (.localName "y") (.ofType (.primitive .float))).1

/-- `x` is the negative zero, `y` the positive one. -/
def bothZeros : List Operation :=
  [.narrow ⟨0⟩ (.pattern .float 0x80000000), .narrow ⟨1⟩ (.pattern .float 0)]

/-- An `x` that equals zero may still be the negative one, and known zeros are equal. -/
theorem compare_numerically_zeros :
    (Memory.empty.assume twoFloats ⟨⟨0⟩, .equal, .constant (.pattern .float 0)⟩).1 = true ∧
      FitsPatterns twoFloats
        (Memory.empty.assume twoFloats ⟨⟨0⟩, .equal, .constant (.pattern .float 0)⟩).2
        (fun _ => 0x80000000) ∧
      ((goOn twoFloats .empty bothZeros).assume twoFloats ⟨⟨0⟩, .equal, .var ⟨1⟩⟩).1 = true := by
  have x : twoFloats.Numeric .float ⟨0⟩ := ⟨rfl, by decide⟩
  have y : twoFloats.Numeric .float ⟨1⟩ := ⟨rfl, by decide⟩
  have fits : FitsPatterns twoFloats .empty (fun _ => 0x80000000) :=
    fitsPatterns_empty fun {kind _} numeric => by
      have floating := numeric.floating
      cases kind <;> first
        | exact rfl
        | cases floating
  have zeros : PrimitiveKind.NumericallyEqual .float 0x80000000 0 := by decide
  have has : PrimitiveKind.HasPattern .float 0 := rfl
  have unknown := Arises.compare_numerically (Arises.start twoFloats) (.pattern .equal x has)
  have known := Arises.compare_numerically
    ((Arises.start twoFloats).operateAll bothZeros (by decide)) (.var .equal x y)
  have ⟨accepted, kept⟩ := unknown.1 _ fits ⟨0, rfl, zeros⟩
  exact ⟨accepted, kept, (known.2 0x80000000 0 rfl rfl (by decide) (by decide)).1.mpr zeros⟩

end Memory

end PauseFlow
