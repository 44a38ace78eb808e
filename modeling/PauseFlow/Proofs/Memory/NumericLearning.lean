import PauseFlow.Proofs.Abstract.Refinement
import PauseFlow.Proofs.Memory.NumericComparison

/-! A comparison with a constant before and after the bits of the variable are learnt. Known numbers
are compared after widening, but bits that are not known yet are narrowed to those of the constant,
which are never of another kind. -/
namespace PauseFlow.Memory

open AbstractValue

variable {registry : Variables} {memory after : Memory} {kind other : PrimitiveKind} {var : Var}
  {bits constant : UInt64} {relation : Relation}

/-- Bits are learnt where they are known already, or where nothing is known and they are not
excluded. -/
theorem Arises.learn_bits_cases (arises : Arises registry memory)
    (numeric : registry.Numeric kind var)
    (learned : memory.narrow registry var (.pattern kind bits) = (true, after)) :
    after.value registry var = .pattern kind bits ∧
      (memory.value registry var = .pattern kind bits ∨
        memory.value registry var = .primitive kind none ∧
          .pattern kind bits ∉ memory.exclusions (memory.root var)) := by
  obtain ⟨content, value⟩ := arises.numeric_value numeric
  rcases narrow_cases memory registry var (.pattern kind bits) with
    ⟨_, refused⟩ | ⟨possible, free, accepted⟩
  · rw [refused] at learned
    cases learned
  · have narrowed : memory.narrowed registry var (.pattern kind bits) = .pattern kind bits :=
      ((Definite.primitive kind (.floating bits)).meet _).resolve_right possible
    rw [narrowed] at accepted free
    rw [accepted] at learned
    cases learned
    refine ⟨by rw [value_withFact, if_pos rfl], ?_⟩
    cases content with
    | none => exact .inr ⟨value, isExcluded_eq_false_iff.mp free rfl⟩
    | some known =>
      rw [Memory.narrowed, value] at possible
      rcases meet_primitives_cases registry.table kind kind (some known) (some (.floating bits)) with
        ⟨⟨_, concur⟩, _⟩ | ⟨_, clash⟩
      · rw [concur known _ rfl rfl] at value
        exact .inl value
      · exact absurd clash possible

/-- An unknown number may differ from every constant, and it may equal zero and what it can be
narrowed to. -/
theorem assume_unknown_accepted_iff (floating : kind.isFloating = true)
    (unknown : memory.value registry var = .primitive kind none) (has : other.HasPattern constant) :
    (memory.assume registry ⟨var, relation, .constant (.pattern other constant)⟩).1 = true ↔
      relation = .different ∨ other.IsZero constant ∨ ¬ other.IsNaN constant ∧
        kind = other ∧ .pattern kind constant ∉ memory.exclusions (memory.root var) := by
  have known := floatingConstant_pattern has
  have unknownNumber : (memory.value registry var).floatingConstant = none := by
    rw [unknown]
    cases kind <;> rfl
  have isFloating : (memory.value registry var).isFloating = true := by rwa [unknown]
  rw [assume, if_pos isFloating, ← PrimitiveKind.isNaN_widen_iff has,
    ← PrimitiveKind.isZero_widen_iff has]
  by_cases decided : Binary64.isNaN (other.widen constant) = true ∨
      Binary64.isZero (other.widen constant) = true
  · rw [assumeFloating_constant_of_decided known (.inr decided), unknownNumber]
    rcases decided with isNaN | isZero
    · have nonzero : Binary64.isZero (other.widen constant) = false := by
        refine Bool.eq_false_iff.mpr fun isZero => ?_
        rw [Binary64.isNaN_eq_false_of_isZero isZero] at isNaN
        cases isNaN
      cases relation <;> simp [Relation.compares, Relation.holds, isNaN, nonzero]
    · have proper := Binary64.isNaN_eq_false_of_isZero isZero
      simp [Relation.compares, proper, isZero]
  · simp only [not_or, Bool.not_eq_true] at decided
    rw [assumeFloating_constant_of_open known unknownNumber decided.1 decided.2]
    cases relation with
    | different => simp [exclude_unknown unknown]
    | equal =>
      dsimp only
      rw [narrow_unknown unknown, decided.1, decided.2]
      split
      · rename_i fits
        obtain ⟨rfl, free⟩ := fits
        simp [free]
      · rename_i clash
        simp [clash]

/-- An equality that is true of bits that are not known yet is possible for a constant of the same
kind and for zero. -/
theorem assume_unknown_equal_iff (floating : kind.isFloating = true)
    (unknown : memory.value registry var = .primitive kind none)
    (free : .pattern kind bits ∉ memory.exclusions (memory.root var)) (has : kind.HasPattern bits)
    (otherHas : other.HasPattern constant)
    (equal : Binary64.numericallyEqual (kind.widen bits) (other.widen constant) = true) :
    (memory.assume registry ⟨var, .equal, .constant (.pattern other constant)⟩).1 = true ↔
      other = kind ∨ other.IsZero constant := by
  rw [assume_unknown_accepted_iff floating unknown otherHas]
  constructor
  · rintro (impossible | zero | ⟨_, same, _⟩)
    · cases impossible
    · exact .inr zero
    · exact .inl same.symm
  · rintro (rfl | zero)
    · obtain ⟨_, proper, same | ⟨_, zero⟩⟩ :=
        (PrimitiveKind.numericallyEqual_widen_iff has otherHas).mp equal
      · exact .inr (.inr ⟨proper, rfl, same ▸ free⟩)
      · exact .inr (.inl zero)
    · exact .inr (.inl zero)

/-- Learning the bits of a number makes a comparison with a constant possible that was not before
in one case only: nothing was known of the number, and it turns out to equal a constant of the
other kind that is not zero. -/
theorem Arises.compare_after_learning (arises : Arises registry memory)
    (numeric : registry.Numeric kind var) (has : kind.HasPattern bits)
    (otherHas : other.HasPattern constant) (relation : Relation)
    (learned : memory.narrow registry var (.pattern kind bits) = (true, after)) :
    ((after.assume registry ⟨var, relation, .constant (.pattern other constant)⟩).1 = true ↔
      relation.Means
        (Binary64.numericallyEqual (kind.widen bits) (other.widen constant) = true)) ∧
    (((after.assume registry ⟨var, relation, .constant (.pattern other constant)⟩).1 = true →
        (memory.assume registry ⟨var, relation, .constant (.pattern other constant)⟩).1 = true) ↔
      ¬ (relation = .equal ∧ other ≠ kind ∧
        memory.value registry var = .ofType (.primitive kind) ∧ ¬ other.IsZero constant ∧
        Binary64.numericallyEqual (kind.widen bits) (other.widen constant) = true)) := by
  obtain ⟨known, before⟩ := arises.learn_bits_cases numeric learned
  have answer : (after.assume registry ⟨var, relation, .constant (.pattern other constant)⟩).1 =
      relation.holds (Binary64.numericallyEqual (kind.widen bits) (other.widen constant)) :=
    congrArg Prod.fst (assume_of_known_numbers has otherHas known rfl)
  have accepted_iff := relation.holds_iff_means
    (Binary64.numericallyEqual (kind.widen bits) (other.widen constant))
  rw [answer, accepted_iff]
  refine ⟨.rfl, ?_⟩
  rcases before with same | ⟨unknown, free⟩
  · have sameAnswer :
        (memory.assume registry ⟨var, relation, .constant (.pattern other constant)⟩).1 =
          relation.holds (Binary64.numericallyEqual (kind.widen bits) (other.widen constant)) :=
      congrArg Prod.fst (assume_of_known_numbers has otherHas same rfl)
    rw [sameAnswer, accepted_iff]
    refine iff_of_true id fun clash => ?_
    have impossible := same.symm.trans clash.2.2.1
    cases impossible
  · cases relation with
    | different =>
      have accepted := (assume_unknown_accepted_iff numeric.floating unknown otherHas).mpr (.inl rfl)
      exact iff_of_true (fun _ => accepted) nofun
    | equal =>
      have declared : memory.value registry var = .ofType (.primitive kind) := unknown
      by_cases equal : Binary64.numericallyEqual (kind.widen bits) (other.widen constant) = true
      · rw [assume_unknown_equal_iff numeric.floating unknown free has otherHas equal]
        simp [Relation.Means, equal, declared, or_iff_not_imp_left]
      · exact iff_of_true (fun impossible => absurd impossible equal) fun clash =>
          equal clash.2.2.2.2

def oneFloat : Variables :=
  ((Variables.ofTable .small).request (.localName "x") (.ofType (.primitive .float))).1

/-- An unknown `x` of kind `float` is said never to equal the `double` two and a half, although it
does once it is known to be that number. -/
theorem compare_after_learning_two_and_a_half :
    let equal : Condition := ⟨⟨0⟩, .equal, .constant (.pattern .double 0x4004000000000000)⟩
    let told := Memory.empty.narrow oneFloat ⟨0⟩ (.pattern .float 0x40200000)
    told.1 = true ∧ (told.2.assume oneFloat equal).1 = true ∧
      (Memory.empty.assume oneFloat equal).1 = false := by
  intro equal told
  have numeric : oneFloat.Numeric .float ⟨0⟩ := ⟨rfl, by decide⟩
  have single : PrimitiveKind.HasPattern .float 0x40200000 := rfl
  have double : PrimitiveKind.HasPattern .double 0x4004000000000000 := rfl
  have accepted : Memory.empty.narrow oneFloat ⟨0⟩ (.pattern .float 0x40200000) =
      (true, told.2) := by decide
  have same : Binary64.numericallyEqual (PrimitiveKind.widen .float 0x40200000)
      (PrimitiveKind.widen .double 0x4004000000000000) = true := by decide
  have ⟨known, kept_iff⟩ :=
    Arises.compare_after_learning (Arises.start oneFloat) numeric single double .equal accepted
  have lost := (not_iff_not.mpr kept_iff).mpr
    (not_not.mpr ⟨rfl, by decide, by decide, by decide, same⟩)
  exact ⟨by decide, known.mpr same, Bool.eq_false_iff.mpr fun unknown => lost fun _ => unknown⟩

end PauseFlow.Memory
