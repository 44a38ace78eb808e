import PauseFlow.Proofs.Abstract.Swapping
import PauseFlow.Proofs.Memory.NumericComparison

/-! A condition between two variables, read from either side. What is known of the left one decides
whether numbers are compared or values, so the sides can matter where only one of them is known to
be a number. -/
namespace PauseFlow

theorem Binary64.numericallyEqual_comm (left right : UInt64) :
    numericallyEqual left right = numericallyEqual right left := by
  simp only [numericallyEqual, eq_comm (a := left), Bool.and_comm]

theorem Relation.compares_comm (relation : Relation) (left right : Option UInt64) :
    relation.compares left right = relation.compares right left := by
  cases left with
  | none => cases right <;> rfl
  | some leftNumber =>
    cases right with
    | none => rfl
    | some rightNumber => rw [compares, compares, Binary64.numericallyEqual_comm]

namespace AbstractValue

private theorem floatingConstant_of_plain {value : AbstractValue}
    (plain : value.isFloating = false) : value.floatingConstant = none := by
  unfold floatingConstant
  split
  · cases plain
  · cases plain
  · rfl

/-- Of what is not known to be a number, only an unknown value fits one. -/
theorem meet_number_ne_bottom_iff {table : ClassTable} {value number : AbstractValue}
    (plain : value.isFloating = false) (floating : number.isFloating = true) :
    value.meet table number ≠ .bottom ↔ value = .top := by
  cases number with
  | bottom => cases floating
  | top => cases floating
  | reference fact => cases floating
  | primitive kind content =>
    cases value with
    | bottom => exact iff_of_false (absurd rfl) nofun
    | top => exact iff_of_true nofun rfl
    | reference fact => exact iff_of_false (absurd rfl) nofun
    | primitive otherKind otherContent =>
      refine iff_of_false (fun possible => ?_) nofun
      rcases meet_primitives_cases table otherKind kind otherContent content with
        ⟨⟨same, _⟩, _⟩ | ⟨_, clash⟩
      · subst same
        exact absurd (plain.symm.trans floating) nofun
      · exact possible clash

end AbstractValue

namespace Memory

variable {registry : Variables} {memory : Memory} {left right number other : Var}

private theorem separate_accepted_comm (memory : Memory) (registry : Variables) (left right : Var) :
    (memory.separate registry left right).1 = (memory.separate registry right left).1 := by
  rw [Bool.eq_iff_iff, separate_accepted_iff, separate_accepted_iff]
  refine and_congr ne_comm (not_congr ⟨?_, ?_⟩)
  · exact fun ⟨identity, same⟩ => ⟨same ▸ identity, same.symm⟩
  · exact fun ⟨identity, same⟩ => ⟨same ▸ identity, same.symm⟩

private theorem assume_of_plain (plain : (memory.value registry left).isFloating = false)
    (relation : Relation) (right : Var) :
    memory.assume registry ⟨left, relation, .var right⟩ =
      match relation with
      | .equal => memory.unite registry left right
      | .different => memory.separate registry left right := by
  unfold assume
  simp only [plain]
  cases relation <;> rfl

private theorem assume_of_number (floating : (memory.value registry left).isFloating = true)
    (relation : Relation) (right : Var) :
    memory.assume registry ⟨left, relation, .var right⟩ =
      (relation.compares (memory.value registry left).floatingConstant
        (memory.value registry right).floatingConstant, memory) := by
  rw [assume, if_pos floating, assumeFloating_var]

/-- A variable of which nothing is known can be told to hold the value of another one. -/
structure MayTake (registry : Variables) (memory : Memory) (var other : Var) : Prop where
  unknown : memory.value registry var = .top
  unrelated : ¬ memory.Apart (memory.root var) (memory.root other)
  free : memory.isExcluded (memory.root var) (memory.value registry other) = false

/-- Only the first variable is known to be a number. It may equal the other one unless it is a NaN,
the other one may equal it if nothing is known of that one, and these two answers differ. -/
structure OneSided (registry : Variables) (memory : Memory) (number other : Var) : Prop where
  floating : (memory.value registry number).isFloating = true
  plain : (memory.value registry other).isFloating = false
  differs : (memory.value registry number).floatingConstant.any Binary64.isNaN = true ↔
    MayTake registry memory other number

section Reached

variable (reached : Reachable AbstractValue.Declared registry memory)

include reached

private theorem Reachable.isExcluded_overlap_comm (left right root : Var) :
    memory.isExcluded root (memory.overlap registry left right) =
      memory.isExcluded root (memory.overlap registry right left) := by
  have regular := reached.shaped.regular_value (regular_declared reached.built)
  have same_of_constant : ∀ {first second : Var},
      (memory.overlap registry first second).isConstant = true →
      memory.overlap registry second first = memory.overlap registry first second :=
    fun {first second} => AbstractValue.meet_comm_of_isConstant (regular first) (regular second)
  cases constant : (memory.overlap registry left right).isConstant with
  | true => rw [same_of_constant constant]
  | false =>
    cases turned : (memory.overlap registry right left).isConstant with
    | true => rw [same_of_constant turned]
    | false => simp [isExcluded, constant, turned]

private theorem Reachable.unite_accepted_comm (left right : Var) :
    (memory.unite registry left right).1 = (memory.unite registry right left).1 := by
  have apart_comm : memory.Apart (memory.root left) (memory.root right) ↔
      memory.Apart (memory.root right) (memory.root left) := ⟨.symm, .symm⟩
  have possible_comm : memory.overlap registry left right ≠ .bottom ↔
      memory.overlap registry right left ≠ .bottom := AbstractValue.meet_ne_bottom_comm _ _
  rw [Bool.eq_iff_iff, unite_accepted_iff, unite_accepted_iff, eq_comm, apart_comm, possible_comm,
    reached.isExcluded_overlap_comm left right, reached.isExcluded_overlap_comm left right,
    and_comm (a := memory.isExcluded (memory.root left) _ = false)]

/-- A number can be united only with a variable of which nothing is known, if the other side is not
known to be a number. -/
theorem Reachable.unite_number_accepted_iff
    (floating : (memory.value registry number).isFloating = true)
    (plain : (memory.value registry other).isFloating = false) :
    (memory.unite registry other number).1 = true ↔ MayTake registry memory other number := by
  have free := reached.shaped.not_isExcluded_value reached.built number
  have different : memory.root other ≠ memory.root number := by
    intro same
    have sameValue : memory.value registry other = memory.value registry number := by
      rw [Memory.value, same, Memory.value]
    rw [sameValue, floating] at plain
    cases plain
  have possible_iff : memory.overlap registry other number ≠ .bottom ↔
      memory.value registry other = .top := AbstractValue.meet_number_ne_bottom_iff plain floating
  have overlap : memory.value registry other = .top →
      memory.overlap registry other number = memory.value registry number := by
    intro unknown
    rw [Memory.overlap, unknown]
    cases memory.value registry number <;> rfl
  rw [unite_accepted_iff, possible_iff]
  constructor
  · rintro (same | ⟨unrelated, unknown, freeOther, _⟩)
    · exact absurd same different
    · exact ⟨unknown, unrelated, overlap unknown ▸ freeOther⟩
  · rintro ⟨unknown, unrelated, freeOther⟩
    rw [overlap unknown]
    exact .inr ⟨unrelated, unknown, freeOther, free⟩

/-- A number differs from what is not known to be one, and it equals it unless it is a NaN. From the
other side, the equality asks whether that may take the number. -/
theorem Reachable.assume_one_number (floating : (memory.value registry number).isFloating = true)
    (plain : (memory.value registry other).isFloating = false) :
    (memory.assume registry ⟨number, .different, .var other⟩).1 = true ∧
    (memory.assume registry ⟨other, .different, .var number⟩).1 = true ∧
    ((memory.assume registry ⟨number, .equal, .var other⟩).1 = true ↔
      (memory.value registry number).floatingConstant.any Binary64.isNaN = false) ∧
    ((memory.assume registry ⟨other, .equal, .var number⟩).1 = true ↔
      MayTake registry memory other number) := by
  have differ : memory.value registry other ≠ memory.value registry number := by
    intro same
    rw [same, floating] at plain
    cases plain
  have unknown := AbstractValue.floatingConstant_of_plain plain
  simp only [assume_of_number floating, assume_of_plain plain, unknown]
  refine ⟨?_, ?_, ?_, reached.unite_number_accepted_iff floating plain⟩
  · cases (memory.value registry number).floatingConstant <;> simp [Relation.compares, Relation.holds]
  · rw [separate_accepted_iff]
    exact ⟨fun same => differ (by rw [Memory.value, same, Memory.value]), fun clash => differ clash.2⟩
  · cases (memory.value registry number).floatingConstant <;>
      simp [Relation.compares, Relation.holds]

private theorem Reachable.equality_agrees_iff
    (floating : (memory.value registry number).isFloating = true)
    (plain : (memory.value registry other).isFloating = false) :
    (memory.assume registry ⟨number, .equal, .var other⟩).1 =
        (memory.assume registry ⟨other, .equal, .var number⟩).1 ↔
      ¬ OneSided registry memory number other := by
  obtain ⟨_, _, forward, backward⟩ := reached.assume_one_number floating plain
  have oneSided_iff : OneSided registry memory number other ↔
      ((memory.value registry number).floatingConstant.any Binary64.isNaN = true ↔
        MayTake registry memory other number) :=
    ⟨OneSided.differs, fun differs => ⟨floating, plain, differs⟩⟩
  rw [Bool.eq_iff_iff, forward, backward, oneSided_iff, ← Bool.not_eq_true]
  exact not_iff.symm

/-- Swapping the sides never changes the answer to an inequality of two variables, and to an
equality only where one side alone is known to be a number. -/
theorem Reachable.assume_swapped (left right : Var) :
    (memory.assume registry ⟨left, .different, .var right⟩).1 =
        (memory.assume registry ⟨right, .different, .var left⟩).1 ∧
      ((memory.assume registry ⟨left, .equal, .var right⟩).1 =
          (memory.assume registry ⟨right, .equal, .var left⟩).1 ↔
        ¬ OneSided registry memory left right ∧ ¬ OneSided registry memory right left) := by
  have not_oneSided_of_plain : ∀ {first second : Var},
      (memory.value registry first).isFloating = false → ¬ OneSided registry memory first second :=
    fun plain oneSided => nomatch plain.symm.trans oneSided.floating
  have not_oneSided_of_number : ∀ {first second : Var},
      (memory.value registry second).isFloating = true → ¬ OneSided registry memory first second :=
    fun floating oneSided => nomatch floating.symm.trans oneSided.plain
  cases leftFloating : (memory.value registry left).isFloating with
  | true =>
    cases rightFloating : (memory.value registry right).isFloating with
    | true =>
      simp only [assume_of_number leftFloating, assume_of_number rightFloating,
        Relation.compares_comm _ (memory.value registry left).floatingConstant, true_iff, true_and]
      exact ⟨not_oneSided_of_number rightFloating, not_oneSided_of_number leftFloating⟩
    | false =>
      obtain ⟨forward, backward, _⟩ := reached.assume_one_number leftFloating rightFloating
      refine ⟨forward.trans backward.symm, ?_⟩
      rw [reached.equality_agrees_iff leftFloating rightFloating]
      exact (and_iff_left (not_oneSided_of_plain rightFloating)).symm
  | false =>
    cases rightFloating : (memory.value registry right).isFloating with
    | true =>
      obtain ⟨backward, forward, _⟩ := reached.assume_one_number rightFloating leftFloating
      refine ⟨forward.trans backward.symm, ?_⟩
      rw [eq_comm, reached.equality_agrees_iff rightFloating leftFloating]
      exact (and_iff_right (not_oneSided_of_plain leftFloating)).symm
    | false =>
      simp only [assume_of_plain leftFloating, assume_of_plain rightFloating]
      refine ⟨separate_accepted_comm memory registry left right, ?_⟩
      exact iff_of_true (reached.unite_accepted_comm left right)
        ⟨not_oneSided_of_plain leftFloating, not_oneSided_of_plain rightFloating⟩

end Reached

def numberAlone : Variables :=
  ((Variables.ofTable .small).request (.localName "d") (.ofType (.primitive .double))).1

def numberAndObject : Variables :=
  (numberAlone.request (.localName "o") (.ofType (.ofClass ⟨0⟩))).1

/-- A number, an object and what the object boxes, if anything. -/
def numberAndBox : Variables := (numberAndObject.request (.derived ⟨1⟩ .unboxed) .top).1

/-- The number is known to be a NaN. -/
def notANumber : Memory :=
  (Memory.empty.narrow numberAndBox ⟨0⟩ (.pattern .double 0x7FF8000000000000)).2

private theorem reachable_notANumber : Reachable AbstractValue.Declared numberAndBox notANumber :=
    by
  have number : Reachable AbstractValue.Declared numberAlone .empty :=
    (Reachable.start .small).request (.ofType _) nofun
  have object : Reachable AbstractValue.Declared numberAndObject .empty :=
    number.request (.ofType _) nofun
  have issued : ∀ qualifier, (Origin.derived ⟨1⟩ .unboxed).qualifier? = some qualifier →
      numberAndObject.Issued qualifier := by
    intro qualifier same
    cases same
    decide
  have box : Reachable AbstractValue.Declared numberAndBox .empty := object.request .top issued
  exact box.operate (.narrow ⟨0⟩ (.pattern .double 0x7FF8000000000000))
    (List.forall_mem_singleton.mpr (.primitive _ _))

/-- A NaN is told to equal nothing, but the content of the box is told to equal the NaN. -/
theorem assume_swapped_notANumber :
    (notANumber.assume numberAndBox ⟨⟨0⟩, .equal, .var ⟨2⟩⟩).1 ≠
      (notANumber.assume numberAndBox ⟨⟨2⟩, .equal, .var ⟨0⟩⟩).1 := by
  have takes : MayTake numberAndBox notANumber ⟨2⟩ ⟨0⟩ := ⟨by decide, nofun, by decide⟩
  have oneSided : OneSided numberAndBox notANumber ⟨0⟩ ⟨2⟩ :=
    ⟨by decide, by decide, iff_of_true (by decide) takes⟩
  exact fun same => ((Reachable.assume_swapped reachable_notANumber ⟨0⟩ ⟨2⟩).2.mp same).1 oneSided

end Memory

end PauseFlow
