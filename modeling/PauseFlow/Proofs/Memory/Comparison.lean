import PauseFlow.Proofs.Memory.Acceptance
import PauseFlow.Proofs.Memory.Refusal
import PauseFlow.Proofs.Memory.Typing

/-! A comparison with a constant against one with a variable that is known to hold the constant.
As equalities they are accepted alike. As inequalities they are told apart by texts, which may live
in different objects, and by boolean constants that are no truth values. -/
namespace PauseFlow

namespace AbstractValue

/-- The same text is known, which may be in one object or in two. -/
def SameText (known constant : AbstractValue) : Prop :=
  known = constant ∧ ∃ text owner, constant = .stringConstant text owner

/-- A truth value against a constant of its kind that is none. -/
def NoTruthValue (known constant : AbstractValue) : Prop :=
  ∃ flag content, constant = .boolean flag ∧ known = .primitive .boolean (some content) ∧
    PrimitiveKind.boolean.admits content = false

private theorem Typed.not_isFloating {sort : ValueSort} {known : AbstractValue}
    (typed : Typed sort known) (discrete : sort.isFloating = false) : known.isFloating = false := by
  cases typed with
  | primitive kind content => exact discrete
  | reference reduced => rfl

/-- Texts are the only constants of which two may be equal but not the same. -/
theorem Constructed.isIdentityConstant_eq_false_iff {constant : AbstractValue}
    (constructed : Constructed constant) (isConstant : constant.isConstant = true) :
    constant.isIdentityConstant = false ↔ ∃ text owner, constant = .stringConstant text owner := by
  constructor
  · intro weak
    cases constructed with
    | ofType type => cases type <;> cases isConstant
    | primitive kind value => cases weak
    | null => cases weak
    | notNull bound => cases isConstant
    | stringConstant text owner => exact ⟨text, owner, rfl⟩
    | enumConstant owner name => cases weak
  · rintro ⟨text, owner, rfl⟩
    rfl

private theorem meet_boolean_eq_bottom_iff {table : ClassTable} (content : Option PrimitiveValue)
    (flag : Bool) : (primitive .boolean content).meet table (boolean flag) = .bottom ↔
      ∃ own, content = some own ∧ own ≠ .boolean flag := by
  cases content with
  | none => simp [boolean, meet]
  | some own => simp [boolean, meet]

private theorem ne_of_noTruthValue (known constant : AbstractValue)
    (strange : known.NoTruthValue constant) : known ≠ constant := by
  obtain ⟨flag, content, rfl, rfl, strange⟩ := strange
  intro same
  cases same
  cases strange

private theorem definite_boolean (flag : Bool) : Definite (boolean flag) := .primitive _ _

private theorem admits_boolean_eq_false_iff (content : PrimitiveValue) (flag : Bool) :
    PrimitiveKind.boolean.admits content = false ↔
      content ≠ .boolean flag ∧ content ≠ .boolean !flag := by
  cases content with
  | boolean own => cases own <;> cases flag <;> simp [PrimitiveKind.admits]
  | integral number => simp [PrimitiveKind.admits]
  | char letter => simp [PrimitiveKind.admits]
  | floating bits => simp [PrimitiveKind.admits]

end AbstractValue

namespace Memory

open AbstractValue

variable {registry : Variables} {memory : Memory} {var : Var}

private theorem narrow_definite_accepted_iff (memory : Memory) (registry : Variables) (var : Var)
    {constant : AbstractValue} (definite : Definite constant) :
    (memory.narrow registry var constant).1 = true ↔
      memory.narrowed registry var constant ≠ .bottom ∧
        memory.isExcluded (memory.root var) constant = false := by
  rw [narrow_accepted_iff]
  refine and_congr_right fun possible => ?_
  rw [narrowed, (definite.meet _).resolve_right possible]

/-- Truth values are never excluded, since the other one can be said instead. -/
theorem Informed.not_isExcluded_boolean (informed : Informed registry memory) (root : Var)
    (flag : Bool) : memory.isExcluded root (.boolean flag) = false := by
  apply isExcluded_eq_false_iff.mpr
  intro _ member
  cases informed.plain member

/-- The other truth value fits unless what is known is neither of them. -/
theorem Informed.narrow_boolean_iff (informed : Informed registry memory)
    (typed : Typed (.primitive .boolean) (memory.value registry var)) {flag : Bool}
    (different : memory.value registry var ≠ .boolean flag) :
    (memory.narrow registry var (.boolean !flag)).1 = true ↔
      ¬ (memory.value registry var).NoTruthValue (.boolean flag) := by
  rw [narrow_definite_accepted_iff memory registry var (definite_boolean _),
    and_iff_left (informed.not_isExcluded_boolean _ _), narrowed]
  generalize memory.value registry var = known at typed different ⊢
  cases typed with
  | primitive _ content =>
    rw [ne_eq, meet_boolean_eq_bottom_iff]
    apply not_congr
    constructor
    · rintro ⟨own, rfl, other⟩
      have neither : own ≠ .boolean flag := fun same => different (by rw [same]; rfl)
      exact ⟨flag, own, rfl, rfl, (admits_boolean_eq_false_iff own flag).mpr ⟨neither, other⟩⟩
    · rintro ⟨_, own, same, known, strange⟩
      cases same
      cases known
      exact ⟨own, rfl, ((admits_boolean_eq_false_iff own flag).mp strange).2⟩

/-- What is not known to be `null` may be an object. -/
theorem Settled.narrow_notNull (settled : Settled registry memory)
    (typed : Typed .reference (memory.value registry var))
    (different : memory.value registry var ≠ .null) :
    (memory.narrow registry var (.notNull .top)).1 = true := by
  have free := settled.free var
  rw [narrow_accepted_iff, narrowed]
  generalize memory.value registry var = known at typed different free ⊢
  cases typed with
  | @reference fact reduced =>
    obtain ⟨nullability, bound, content⟩ := fact
    have unbounded : bound.meet registry.table .top = bound := by cases bound <;> rfl
    have possible : bound ≠ .bottom := reduced.possible
    have notNull : nullability ≠ .null := fun isNull =>
      different (congrArg AbstractValue.reference (reduced.ofNull isNull))
    have met : (AbstractValue.reference ⟨nullability, bound, content⟩).meet registry.table
        (.notNull .top) = .reference ⟨.notNull, bound, content⟩ := by
      cases nullability with
      | null => exact absurd rfl notNull
      | notNull =>
        simp [AbstractValue.notNull, meet, meetReferences, Nullability.meet?, unbounded, possible]
      | nullable =>
        simp [AbstractValue.notNull, meet, meetReferences, Nullability.meet?, unbounded, possible]
    rw [met]
    refine ⟨by simp, ?_⟩
    cases content with
    | none => rfl
    | some object =>
      have same : nullability = .notNull := reduced.ofContent rfl
      rwa [same] at free

/-- Beside the constant itself, only a boolean constant that is no truth value keeps a constant of
its sort from being excluded. -/
theorem Arises.exclude_accepted_iff_of_typed (arises : Arises registry memory) {sort : ValueSort}
    {constant : AbstractValue} (typed : Typed sort (memory.value registry var))
    (sorted : constant.sort? = some sort) (definite : Definite constant) :
    (memory.exclude registry var constant).1 = true ↔
      memory.value registry var ≠ constant ∧
        ¬ (memory.value registry var).NoTruthValue constant := by
  rw [exclude_accepted_iff memory registry var definite.isConstant]
  refine and_congr_right fun different => ?_
  cases left : complement? constant with
  | none =>
    refine ⟨fun _ strange => ?_, fun _ => nofun⟩
    obtain ⟨_, _, rfl, _⟩ := strange
    cases left
  | some other =>
    rcases complement?_cases left with ⟨flag, rfl, rfl⟩ | ⟨fact, rfl, isNull, rfl⟩
    · cases sorted
      rw [← arises.informed.narrow_boolean_iff typed different]
      exact ⟨fun fits => fits _ rfl, fun fits _ same => Option.some.inj same ▸ fits⟩
    · cases sorted
      have null : AbstractValue.reference fact = .null := by
        cases definite with
        | null => rfl
        | object type content => cases isNull
      rw [null] at different ⊢
      have fits := arises.settled.narrow_notNull typed different
      refine ⟨fun _ strange => ?_, fun _ _ same => Option.some.inj same ▸ fits⟩
      obtain ⟨_, _, impossible, _⟩ := strange
      cases impossible

section Spellings

variable {left right : Var} {constant : AbstractValue}

/-- Merging with a variable of a known value is narrowing to that value. -/
theorem Arises.unite_agrees (arises : Arises registry memory)
    (different : memory.areEqual left right = false)
    (unrelated : memory.areDistinct left right = false)
    (known : memory.value registry right = constant) (definite : Definite constant) :
    (memory.unite registry left right).1 = (memory.narrow registry left constant).1 := by
  rw [Bool.eq_iff_iff, unite_accepted_iff, narrow_accepted_iff]
  have apart : ¬ memory.Apart (memory.root left) (memory.root right) := by
    rw [← areDistinct_iff, unrelated]
    nofun
  have separateRoots : memory.root left ≠ memory.root right := by
    rw [ne_eq, ← areEqual_iff, different]
    nofun
  have same : memory.overlap registry left right = memory.narrowed registry left constant := by
    rw [overlap, narrowed, known]
  rw [same]
  constructor
  · intro accepted
    obtain ⟨_, possible, free, _⟩ := accepted.resolve_left separateRoots
    exact ⟨possible, free⟩
  · rintro ⟨possible, free⟩
    refine .inr ⟨apart, possible, free, ?_⟩
    rw [narrowed, (definite.meet _).resolve_right possible, ← known]
    exact arises.settled.free right

/-- Two classes may differ unless both are known to hold one and the same value. -/
theorem separate_accepted_of_known (different : memory.areEqual left right = false)
    (known : memory.value registry right = constant) (constructed : constant.Constructed)
    (isConstant : constant.isConstant = true) :
    (memory.separate registry left right).1 = true ↔
      (memory.value registry left = constant → (memory.value registry left).SameText constant) := by
  have separateRoots : memory.root left ≠ memory.root right := by
    rw [ne_eq, ← areEqual_iff, different]
    nofun
  rw [separate_accepted_iff, known, and_iff_right separateRoots]
  constructor
  · intro fits same
    refine ⟨same, (constructed.isIdentityConstant_eq_false_iff isConstant).mp ?_⟩
    rw [← same]
    exact Bool.eq_false_iff.mpr fun identity => fits ⟨identity, same⟩
  · rintro fits ⟨identity, same⟩
    have weak := (constructed.isIdentityConstant_eq_false_iff isConstant).mpr (fits same).2
    rw [same, weak] at identity
    cases identity

/-- Whether `left` is compared with the variable `right`, that is known to hold a constant, or with
the constant itself makes no difference to an equality. To an inequality it does in two cases only:
both are known to hold the same text, or one a truth value and the other none. In these the
variables may differ, but the constant is refused. What is known of `left` is of the sort of the
constant, as it always is once the declaration says so. -/
theorem Arises.comparisons_agree (arises : Arises registry memory) {sort : ValueSort}
    (typed : (memory.value registry left).Typed sort) (sorted : constant.sort? = some sort)
    (discrete : sort.isFloating = false)
    (different : memory.areEqual left right = false)
    (unrelated : memory.areDistinct left right = false)
    (known : memory.value registry right = constant) (constructed : constant.Constructed)
    (isConstant : constant.isConstant = true) :
    (memory.assume registry ⟨left, .equal, .var right⟩).1 =
        (memory.assume registry ⟨left, .equal, .constant constant⟩).1 ∧
      ((memory.assume registry ⟨left, .different, .var right⟩).1 =
          (memory.assume registry ⟨left, .different, .constant constant⟩).1 ↔
        ¬ (memory.value registry left).SameText constant ∧
          ¬ (memory.value registry left).NoTruthValue constant) ∧
      ((memory.value registry left).SameText constant ∨
          (memory.value registry left).NoTruthValue constant →
        (memory.assume registry ⟨left, .different, .var right⟩).1 = true ∧
          (memory.assume registry ⟨left, .different, .constant constant⟩).1 = false) := by
  have definite := constructed.definite isConstant
  simp only [assume, typed.not_isFloating discrete, Bool.false_eq_true, if_false]
  have separates := separate_accepted_of_known different known constructed isConstant
  have excludes := arises.exclude_accepted_iff_of_typed typed sorted definite
  have known_of_same : (memory.value registry left).SameText constant →
      memory.value registry left = constant := And.left
  have unknown_of_strange := (memory.value registry left).ne_of_noTruthValue constant
  refine ⟨arises.unite_agrees different unrelated known definite, ?_, ?_⟩
  · rw [Bool.eq_iff_iff, separates, excludes]
    constructor
    · intro agree
      refine ⟨fun same => ?_, fun strange => ?_⟩
      · exact (agree.mp fun _ => same).1 (known_of_same same)
      · exact (agree.mp fun known => absurd known (unknown_of_strange strange)).2 strange
    · rintro ⟨noText, ordinary⟩
      exact ⟨fun fits => ⟨fun known => noText (fits known), ordinary⟩,
        fun excluded known => absurd known excluded.1⟩
  · rw [← Bool.not_eq_true, separates, excludes]
    rintro (same | strange)
    · exact ⟨fun _ => same, fun accepted => accepted.1 (known_of_same same)⟩
    · exact ⟨fun known => absurd known (unknown_of_strange strange),
        fun accepted => accepted.2 strange⟩

end Spellings

/-- `x` is not 5, `y` is. -/
def aroundFive : List Operation :=
  [.assume ⟨⟨0⟩, .different, .constant (.int 5)⟩, .narrow ⟨1⟩ (.int 5)]

theorem comparisons_agree_around_five :
    let memory := goOn twoNumbers .empty aroundFive
    (memory.assume twoNumbers ⟨⟨0⟩, .equal, .var ⟨1⟩⟩).1 =
        (memory.assume twoNumbers ⟨⟨0⟩, .equal, .constant (.int 5)⟩).1 ∧
      (memory.assume twoNumbers ⟨⟨0⟩, .different, .var ⟨1⟩⟩).1 =
        (memory.assume twoNumbers ⟨⟨0⟩, .different, .constant (.int 5)⟩).1 := by
  have arises := (Arises.start twoNumbers).operateAll aroundFive (by decide)
  have number : twoNumbers.declared ⟨0⟩ = .ofType (.primitive .int) := by decide
  have known : (goOn twoNumbers .empty aroundFive).value twoNumbers ⟨1⟩ = .int 5 := by decide
  have agree := Arises.comparisons_agree arises (arises.typed number) rfl rfl (by decide)
    (by decide) known (.primitive .int _) rfl
  refine ⟨agree.1, agree.2.1.mpr ⟨?_, ?_⟩⟩
  · rintro ⟨_, _, _, impossible⟩
    cases impossible
  · rintro ⟨_, _, impossible, _⟩
    cases impossible

def twoTexts : Variables :=
  let (registry, _) := (Variables.ofTable .small).request (.localName "s") (.ofType (.ofClass ⟨1⟩))
  (registry.request (.localName "t") (.ofType (.ofClass ⟨1⟩))).1

def twoFlags : Variables :=
  let (registry, _) :=
    (Variables.ofTable .small).request (.localName "p") (.ofType (.primitive .boolean))
  (registry.request (.localName "q") (.ofType (.primitive .boolean))).1

/-- Both variables hold the text. -/
def sameText : Memory :=
  goOn twoTexts .empty
    [.narrow ⟨0⟩ (.stringConstant "a" ⟨1⟩), .narrow ⟨1⟩ (.stringConstant "a" ⟨1⟩)]

/-- The first flag is known to be the number 5, the second one is true. -/
def strangeFlag : Memory :=
  goOn twoFlags .empty
    [.narrow ⟨0⟩ (.primitive .boolean (some (.integral 5))), .narrow ⟨1⟩ (.boolean true)]

/-- Two texts that are equal may be told to differ from each other, but not from that text, and a
flag that is neither true nor false from another flag, but not from true. -/
theorem comparisons_disagree :
    (Arises twoTexts sameText ∧ sameText.areEqual ⟨0⟩ ⟨1⟩ = false ∧
      sameText.areDistinct ⟨0⟩ ⟨1⟩ = false ∧
      sameText.value twoTexts ⟨1⟩ = .stringConstant "a" ⟨1⟩ ∧
      (sameText.assume twoTexts ⟨⟨0⟩, .different, .var ⟨1⟩⟩).1 = true ∧
      (sameText.assume twoTexts
        ⟨⟨0⟩, .different, .constant (.stringConstant "a" ⟨1⟩)⟩).1 = false) ∧
    Arises twoFlags strangeFlag ∧ strangeFlag.areEqual ⟨0⟩ ⟨1⟩ = false ∧
      strangeFlag.areDistinct ⟨0⟩ ⟨1⟩ = false ∧
      strangeFlag.value twoFlags ⟨1⟩ = .boolean true ∧
      (strangeFlag.assume twoFlags ⟨⟨0⟩, .different, .var ⟨1⟩⟩).1 = true ∧
      (strangeFlag.assume twoFlags ⟨⟨0⟩, .different, .constant (.boolean true)⟩).1 = false :=
  ⟨⟨(Arises.start twoTexts).operateAll _ (by decide), by decide⟩,
    (Arises.start twoFlags).operateAll _ (by decide), by decide⟩

end Memory

end PauseFlow
