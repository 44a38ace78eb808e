import Mathlib.Data.Set.Finite.Lattice
import Mathlib.Order.Bounds.Basic
import PauseFlow.Proofs.Abstract.Typed
import PauseFlow.Proofs.Memory.Coherence

/-! The numbers that fit a memory about integers. Facts and exclusions are met by one assignment of
numbers, recorded differences by another one: no operation looks at both at once. -/
namespace PauseFlow

namespace AbstractValue

/-- The number of an integer constant. -/
def number? : AbstractValue → Option Int
  | primitive .int (some (.integral number)) => some number
  | _ => none

@[simp] theorem number?_eq_some_iff {value : AbstractValue} {number : Int} :
    value.number? = some number ↔ value = .int number := by
  constructor
  · intro known
    unfold number? at known
    split at known
    · cases known
      rfl
    · cases known
  · rintro rfl
    rfl

@[simp] theorem number?_int (number : Int) : (int number).number? = some number := rfl

/-- What is known of an integer: its type, or its value as well. -/
inductive IsInt : AbstractValue → Prop where
  | unknown : IsInt (.ofType (.primitive .int))
  | known (number : Int) : IsInt (.int number)

variable {left right : AbstractValue}

theorem IsInt.not_isFloating {value : AbstractValue} (isInt : IsInt value) :
    value.isFloating = false := by
  cases isInt <;> rfl

theorem IsInt.eq_int_of_isIdentityConstant {value : AbstractValue} (isInt : IsInt value)
    (identity : value.isIdentityConstant = true) : ∃ number, value = .int number := by
  cases isInt with
  | unknown => cases identity
  | known number => exact ⟨number, rfl⟩

/-- Integers contradict each other if they are known to be different numbers. -/
theorem IsInt.meet_cases (table : ClassTable) (leftInt : IsInt left) (rightInt : IsInt right) :
    (left.meet table right = .bottom ∧ ∃ first second, left = .int first ∧ right = .int second ∧
      first ≠ second) ∨
    (left.meet table right ≠ .bottom ∧ IsInt (left.meet table right) ∧
      ∀ number, left.meet table right = .int number ↔
        left = .int number ∨ right = .int number) := by
  cases leftInt with
  | unknown =>
    have met : (ofType (.primitive .int)).meet table right = right := by
      cases rightInt <;> simp [ofType, int, meet]
    rw [met]
    exact .inr ⟨by cases rightInt <;> simp [ofType, int], rightInt, fun number => by simp [ofType, int]⟩
  | known first =>
    cases rightInt with
    | unknown =>
      have met : (int first).meet table (ofType (.primitive .int)) = int first := by
        simp [ofType, int, meet]
      rw [met]
      exact .inr ⟨by simp [int], .known first, fun number => by simp [ofType, int]⟩
    | known second =>
      by_cases same : first = second
      · subst same
        have met : (int first).meet table (int first) = int first := by simp [int, meet]
        rw [met]
        exact .inr ⟨by simp [int], .known first, fun number => (or_self_iff).symm⟩
      · exact .inl ⟨by simp [int, meet, same], first, second, rfl, rfl, same⟩

end AbstractValue

namespace Memory

open AbstractValue

variable {registry : Variables} {memory : Memory}

/-- Numbers that agree with the classes, the known values and the excluded constants. -/
structure FitsNumbers (memory : Memory) (numbers : Var → Int) : Prop where
  equal : ∀ var, numbers (memory.root var) = numbers var
  known : ∀ var number, memory.facts.get? var = some (.int number) → numbers var = number
  outside : ∀ var number, .int number ∈ memory.exclusions var → numbers var ≠ number

/-- Numbers that agree with the classes and the recorded differences. -/
structure FitsDifferences (memory : Memory) (numbers : Var → Int) : Prop where
  equal : ∀ var, numbers (memory.root var) = numbers var
  apart : ∀ left right, memory.Apart left right → numbers left ≠ numbers right

theorem fitsNumbers_empty (numbers : Var → Int) : Memory.empty.FitsNumbers numbers where
  equal _ := rfl
  known _ _ recorded := by cases recorded
  outside _ _ member := by cases member

theorem fitsDifferences_empty (numbers : Var → Int) : Memory.empty.FitsDifferences numbers where
  equal _ := rfl
  apart _ _ recorded := by cases recorded

private theorem exists_bound (memory : Memory) : ∃ bound : Int,
    (∀ var number, memory.facts.get? var = some (.int number) → number < bound) ∧
      ∀ var number, .int number ∈ memory.exclusions var → number < bound := by
  let mentioned := memory.facts.entries.filterMap (·.2.number?) ++
    memory.excluded.entries.flatMap fun entry => entry.2.filterMap number?
  obtain ⟨greatest, above⟩ := mentioned.finite_toSet.bddAbove
  refine ⟨greatest + 1, fun var number known => ?_, fun var number member => ?_⟩
  · apply Int.lt_add_one_of_le
    apply above
    apply List.mem_append_left
    have entry := (OrderedMap.mem_entries_iff _ _ _).mpr known
    exact List.mem_filterMap.mpr ⟨_, entry, rfl⟩
  · apply Int.lt_add_one_of_le
    apply above
    apply List.mem_append_right
    unfold exclusions at member
    cases listed : memory.excluded.get? var with
    | none => simp [listed] at member
    | some values =>
      rw [listed] at member
      have entry := (OrderedMap.mem_entries_iff _ _ _).mpr listed
      exact List.mem_flatMap.mpr ⟨_, entry, List.mem_filterMap.mpr ⟨_, member, rfl⟩⟩

/-- Two variables are in one class, or their classes are known to hold one number. -/
def Forces (memory : Memory) (left right : Var) : Prop :=
  memory.root left = memory.root right ∨ ∃ number,
    memory.facts.get? (memory.root left) = some (.int number) ∧
      memory.facts.get? (memory.root right) = some (.int number)

theorem FitsNumbers.eq_of_forces {numbers : Var → Int} (fits : memory.FitsNumbers numbers)
    {left right : Var} (forces : memory.Forces left right) : numbers left = numbers right := by
  rw [← fits.equal left, ← fits.equal right]
  rcases forces with same | ⟨number, leftKnown, rightKnown⟩
  · rw [same]
  · rw [fits.known _ _ leftKnown, fits.known _ _ rightKnown]

/-- The number of a class: the known one, or one of its own from a bound on. -/
def classNumber (memory : Memory) (bound : Int) (root : Var) : Int :=
  ((memory.facts.get? root).bind number?).getD (bound + root.index)

private theorem classNumber_of_known {bound number : Int} {root : Var}
    (known : memory.facts.get? root = some (.int number)) :
    memory.classNumber bound root = number := by
  simp [classNumber, known, number?, int]

private theorem classNumber_cases (memory : Memory) (bound : Int) (root : Var) :
    (∃ number, memory.facts.get? root = some (.int number) ∧
      memory.classNumber bound root = number) ∨
    memory.classNumber bound root = bound + root.index := by
  cases found : (memory.facts.get? root).bind number? with
  | none => exact .inr (by simp [classNumber, found])
  | some number =>
    obtain ⟨value, recorded, isNumber⟩ := Option.bind_eq_some_iff.mp found
    rw [number?_eq_some_iff.mp isNumber] at recorded
    exact .inl ⟨number, recorded, classNumber_of_known recorded⟩

private theorem WellFormed.root_of_mem_exclusions (wellFormed : WellFormed memory) {var : Var}
    {value : AbstractValue} (member : value ∈ memory.exclusions var) : memory.root var = var := by
  unfold exclusions at member
  cases listed : memory.excluded.get? var with
  | none => simp [listed] at member
  | some values => exact root_of_top (wellFormed.excludedAtRoot listed)

/-- No number is known of a class that it was told not to be. -/
theorem Settled.not_mem_exclusions (settled : Settled registry memory)
    (wellFormed : WellFormed memory) {root : Var} {number : Int}
    (known : memory.facts.get? root = some (.int number)) :
    .int number ∉ memory.exclusions root := by
  have own := root_of_top (wellFormed.factAtRoot known)
  have free := settled.free root
  rw [Memory.value, own, classValue, known] at free
  exact isExcluded_eq_false_iff.mp free rfl

/-- Numbers that are equal only where the memory forces them to be. Classes of unknown value get
numbers of their own, above all that were mentioned. -/
theorem Settled.exists_generic (settled : Settled registry memory)
    (wellFormed : WellFormed memory) : ∃ numbers, memory.FitsNumbers numbers ∧
      ∀ {left right}, numbers left = numbers right → memory.Forces left right := by
  obtain ⟨bound, knownBelow, excludedBelow⟩ := memory.exists_bound
  refine ⟨fun var => memory.classNumber bound (memory.root var), ⟨fun var => ?_, ?_, ?_⟩, ?_⟩
  · rw [root_root wellFormed.grounded]
  · intro var number known
    rw [root_of_top (wellFormed.factAtRoot known)]
    exact classNumber_of_known known
  · intro var number member
    rw [wellFormed.root_of_mem_exclusions member]
    rcases memory.classNumber_cases bound var with ⟨own, known, same⟩ | fresh
    · rintro rfl
      exact settled.not_mem_exclusions wellFormed known (same ▸ member)
    · have below := excludedBelow var number member
      omega
  · intro left right same
    dsimp only at same
    rcases memory.classNumber_cases bound (memory.root left) with
      ⟨first, leftKnown, leftIs⟩ | leftIs
    · have leftBelow := knownBelow _ first leftKnown
      rcases memory.classNumber_cases bound (memory.root right) with
        ⟨second, rightKnown, rightIs⟩ | rightIs
      · have agree : first = second := leftIs.symm.trans (same.trans rightIs)
        exact .inr ⟨first, leftKnown, agree ▸ rightKnown⟩
      · omega
    · rcases memory.classNumber_cases bound (memory.root right) with
        ⟨second, rightKnown, rightIs⟩ | rightIs
      · have rightBelow := knownBelow _ second rightKnown
        omega
      · exact .inl (eq_of_index (by omega))

/-- Each class has a number of its own. -/
theorem WellFormed.exists_differences (wellFormed : WellFormed memory) :
    ∃ numbers, memory.FitsDifferences numbers := by
  refine ⟨fun var => (memory.root var).index, fun var => ?_, fun left right apart same => ?_⟩
  · rw [root_root wellFormed.grounded]
  · obtain ⟨leftTop, rightTop⟩ := wellFormed.top_of_apart apart
    rw [root_of_top leftTop, root_of_top rightTop] at same
    rw [eq_of_index (Int.ofNat_inj.mp same)] at apart
    exact wellFormed.apart_irrefl right apart

/-- Every fact is one about an integer. -/
def Integral (memory : Memory) : Prop :=
  ∀ var value, memory.facts.get? var = some value → value.IsInt

private theorem WellFormed.value_of_unknown (wellFormed : WellFormed memory) {var : Var}
    (unknown : memory.facts.get? (memory.root var) = none) :
    memory.value registry var = registry.declared var := by
  have own : memory.root var = var := by
    by_contra member
    obtain ⟨value, found⟩ := wellFormed.known_of_ne_root member
    rw [unknown] at found
    cases found
  rw [Memory.value, classValue, unknown, Option.getD_none, own]

theorem Integral.value (integral : memory.Integral) (wellFormed : WellFormed memory) {var : Var}
    (declared : registry.declared var = .ofType (.primitive .int)) :
    (memory.value registry var).IsInt := by
  cases known : memory.facts.get? (memory.root var) with
  | none =>
    rw [wellFormed.value_of_unknown known, declared]
    exact .unknown
  | some value =>
    rw [Memory.value, classValue, known]
    exact integral _ value known

/-- A known number is a fact, since the declaration says none. -/
theorem WellFormed.value_eq_int_iff (wellFormed : WellFormed memory) {var : Var}
    (declared : registry.declared var = .ofType (.primitive .int)) (number : Int) :
    memory.value registry var = .int number ↔
      memory.facts.get? (memory.root var) = some (.int number) := by
  cases known : memory.facts.get? (memory.root var) with
  | none => simp [wellFormed.value_of_unknown known, declared, ofType, int]
  | some value => simp [Memory.value, classValue, known]

theorem FitsNumbers.of_value {numbers : Var → Int} (fits : memory.FitsNumbers numbers)
    (wellFormed : WellFormed memory) {var : Var}
    (declared : registry.declared var = .ofType (.primitive .int)) {number : Int}
    (known : memory.value registry var = .int number) : numbers var = number := by
  rw [← fits.equal var]
  exact fits.known _ _ ((wellFormed.value_eq_int_iff declared number).mp known)

/-- What the numbers agree with is not excluded. -/
theorem FitsNumbers.not_isExcluded {numbers : Var → Int} (fits : memory.FitsNumbers numbers)
    {var : Var} {value : AbstractValue} (isInt : value.IsInt)
    (agrees : ∀ number, value = .int number → numbers var = number) :
    memory.isExcluded (memory.root var) value = false := by
  cases isInt with
  | unknown => rfl
  | known number =>
    apply isExcluded_eq_false_iff.mpr
    intro _ member
    exact fits.outside _ _ member ((fits.equal var).trans (agrees number rfl))

theorem Integral.withFact (integral : memory.Integral) (root : Var) {value : AbstractValue}
    (isInt : value.IsInt) : (memory.withFact root value).Integral := by
  intro var known found
  simp only [Memory.withFact, OrderedMap.get?_insert] at found
  split at found
  · cases found
    exact isInt
  · exact integral var known found

theorem Integral.merged (integral : memory.Integral) (kept dropped : Var) {value : AbstractValue}
    (isInt : value.IsInt) : (memory.merged kept dropped value).Integral := by
  intro var known found
  rw [get?_facts_merged] at found
  split at found
  · cases found
    exact isInt
  · split at found
    · cases found
    · exact integral var known found

theorem fitsNumbers_withFact_iff {root : Var} {number : Int}
    (agree : ∀ old, memory.facts.get? root = some (.int old) → old = number)
    (numbers : Var → Int) : (memory.withFact root (.int number)).FitsNumbers numbers ↔
      memory.FitsNumbers numbers ∧ numbers root = number := by
  constructor
  · intro fits
    have here : numbers root = number := fits.known root number (by simp [withFact])
    refine ⟨⟨fits.equal, fun var old known => ?_, fits.outside⟩, here⟩
    by_cases same : var = root
    · rw [same] at known ⊢
      rw [here, agree old known]
    · exact fits.known var old (by simp [withFact, same, known])
  · rintro ⟨fits, here⟩
    refine ⟨fits.equal, fun var known found => ?_, fits.outside⟩
    simp only [withFact, OrderedMap.get?_insert] at found
    split at found
    · rename_i same
      cases found
      rw [same, here]
    · exact fits.known var known found

theorem fitsDifferences_withFact_iff (memory : Memory) (root : Var) (value : AbstractValue)
    (numbers : Var → Int) :
    (memory.withFact root value).FitsDifferences numbers ↔ memory.FitsDifferences numbers :=
  ⟨fun fits => ⟨fits.equal, fits.apart⟩, fun fits => ⟨fits.equal, fits.apart⟩⟩

theorem fitsDifferences_withExclusion_iff (memory : Memory) (root : Var) (value : AbstractValue)
    (numbers : Var → Int) :
    (memory.withExclusion root value).FitsDifferences numbers ↔ memory.FitsDifferences numbers :=
  ⟨fun fits => ⟨fits.equal, fits.apart⟩, fun fits => ⟨fits.equal, fits.apart⟩⟩

theorem fitsNumbers_withApart_iff (memory : Memory) (left right : Var) (numbers : Var → Int) :
    (memory.withApart left right).FitsNumbers numbers ↔ memory.FitsNumbers numbers :=
  ⟨fun fits => ⟨fits.equal, fits.known, fits.outside⟩,
    fun fits => ⟨fits.equal, fits.known, fits.outside⟩⟩

theorem fitsNumbers_withExclusion_iff (memory : Memory) (root : Var) (number : Int)
    (numbers : Var → Int) : (memory.withExclusion root (.int number)).FitsNumbers numbers ↔
      memory.FitsNumbers numbers ∧ numbers root ≠ number := by
  constructor
  · intro fits
    refine ⟨⟨fits.equal, fits.known, fun var excluded member => ?_⟩, ?_⟩
    · apply fits.outside
      rw [exclusions_withExclusion]
      split
      · rename_i here
        exact mem_appendNew_iff.mpr (.inl (here ▸ member))
      · exact member
    · apply fits.outside
      rw [exclusions_withExclusion, if_pos rfl]
      exact mem_appendNew_iff.mpr (.inr List.mem_cons_self)
  · rintro ⟨fits, here⟩
    refine ⟨fits.equal, fits.known, fun var excluded member => ?_⟩
    rw [exclusions_withExclusion] at member
    split at member
    · rename_i same
      rw [same]
      rcases mem_appendNew_iff.mp member with old | new
      · exact fits.outside root excluded old
      · cases List.mem_singleton.mp new
        exact here
    · exact fits.outside var excluded member

theorem fitsDifferences_withApart_iff (memory : Memory) (left right : Var)
    (numbers : Var → Int) : (memory.withApart left right).FitsDifferences numbers ↔
      memory.FitsDifferences numbers ∧ numbers left ≠ numbers right := by
  constructor
  · intro fits
    refine ⟨⟨fits.equal, fun first second apart => ?_⟩, ?_⟩
    · apply fits.apart first second
      exact (apart_withApart_iff memory left right _ _).mpr (.inr (.inr apart))
    · apply fits.apart left right
      exact (apart_withApart_iff memory left right _ _).mpr (.inl ⟨rfl, rfl⟩)
  · rintro ⟨fits, differ⟩
    refine ⟨fits.equal, fun first second apart => ?_⟩
    rcases (apart_withApart_iff memory left right _ _).mp apart with
      ⟨rfl, rfl⟩ | ⟨rfl, rfl⟩ | old
    · exact differ
    · exact Ne.symm differ
    · exact fits.apart first second old

section Merging

variable {kept dropped : Var} {value : AbstractValue}

private theorem equal_merged_iff (wellFormed : WellFormed memory) (different : kept ≠ dropped)
    (keptTop : memory.links.get? kept = none) (droppedTop : memory.links.get? dropped = none)
    (value : AbstractValue) (numbers : Var → Int) :
    (∀ var, numbers ((memory.merged kept dropped value).root var) = numbers var) ↔
      (∀ var, numbers (memory.root var) = numbers var) ∧ numbers kept = numbers dropped := by
  simp only [root_merged wellFormed different keptTop droppedTop]
  constructor
  · intro equal
    have joined : numbers kept = numbers dropped := by
      have here := equal dropped
      rwa [root_of_top droppedTop, relabel_self] at here
    refine ⟨fun var => ?_, joined⟩
    rw [← equal var]
    by_cases below : memory.root var = dropped
    · rw [below, relabel_self, joined]
    · rw [relabel_of_ne below]
  · rintro ⟨equal, joined⟩ var
    rw [← equal var]
    by_cases below : memory.root var = dropped
    · rw [below, relabel_self, joined]
    · rw [relabel_of_ne below]

private theorem known_merged_iff
    (known : ∀ number, value = .int number ↔ memory.facts.get? kept = some (.int number) ∨
      memory.facts.get? dropped = some (.int number)) {numbers : Var → Int}
    (joined : numbers kept = numbers dropped) :
    (∀ var number, (memory.merged kept dropped value).facts.get? var = some (.int number) →
      numbers var = number) ↔
    ∀ var number, memory.facts.get? var = some (.int number) → numbers var = number := by
  simp only [get?_facts_merged]
  constructor
  · intro fits var number found
    by_cases inKept : var = kept
    · exact fits var number (by rw [if_pos inKept, (known number).mpr (.inl (inKept ▸ found))])
    · by_cases inDropped : var = dropped
      · rw [inDropped, ← joined]
        exact fits kept number (by
          rw [if_pos rfl, (known number).mpr (.inr (inDropped ▸ found))])
      · exact fits var number (by rw [if_neg inKept, if_neg inDropped, found])
  · intro fits var number found
    split at found
    · rename_i inKept
      rw [inKept]
      rcases (known number).mp (Option.some.inj found) with own | moved
      · exact fits kept number own
      · rw [joined]
        exact fits dropped number moved
    · split at found
      · cases found
      · exact fits var number found

private theorem outside_merged_iff (different : kept ≠ dropped) {numbers : Var → Int}
    (joined : numbers kept = numbers dropped) :
    (∀ var number, .int number ∈ (memory.merged kept dropped value).exclusions var →
      numbers var ≠ number) ↔
    ∀ var number, .int number ∈ memory.exclusions var → numbers var ≠ number := by
  simp only [exclusions_merged different]
  constructor
  · intro fits var number member
    by_cases inKept : var = kept
    · apply fits var number
      rw [if_pos inKept]
      exact mem_appendNew_iff.mpr (.inl (inKept ▸ member))
    · by_cases inDropped : var = dropped
      · rw [inDropped, ← joined]
        apply fits kept number
        rw [if_pos rfl]
        exact mem_appendNew_iff.mpr (.inr (inDropped ▸ member))
      · exact fits var number (by rwa [if_neg inKept, if_neg inDropped])
  · intro fits var number member
    split at member
    · rename_i inKept
      rw [inKept]
      rcases mem_appendNew_iff.mp member with own | moved
      · exact fits kept number own
      · rw [joined]
        exact fits dropped number moved
    · split at member
      · cases member
      · exact fits var number member

theorem fitsNumbers_merged_iff (wellFormed : WellFormed memory) (different : kept ≠ dropped)
    (keptTop : memory.links.get? kept = none) (droppedTop : memory.links.get? dropped = none)
    (known : ∀ number, value = .int number ↔ memory.facts.get? kept = some (.int number) ∨
      memory.facts.get? dropped = some (.int number)) (numbers : Var → Int) :
    (memory.merged kept dropped value).FitsNumbers numbers ↔
      memory.FitsNumbers numbers ∧ numbers kept = numbers dropped := by
  have classes := equal_merged_iff wellFormed different keptTop droppedTop value numbers
  constructor
  · intro fits
    obtain ⟨equal, joined⟩ := classes.mp fits.equal
    exact ⟨⟨equal, (known_merged_iff known joined).mp fits.known,
      (outside_merged_iff different joined).mp fits.outside⟩, joined⟩
  · rintro ⟨fits, joined⟩
    exact ⟨classes.mpr ⟨fits.equal, joined⟩,
      (known_merged_iff known joined).mpr fits.known,
      (outside_merged_iff different joined).mpr fits.outside⟩

theorem fitsDifferences_merged_iff (wellFormed : WellFormed memory) (different : kept ≠ dropped)
    (keptTop : memory.links.get? kept = none) (droppedTop : memory.links.get? dropped = none)
    (value : AbstractValue) (numbers : Var → Int) :
    (memory.merged kept dropped value).FitsDifferences numbers ↔
      memory.FitsDifferences numbers ∧ numbers kept = numbers dropped := by
  have classes := equal_merged_iff wellFormed different keptTop droppedTop value numbers
  constructor
  · intro fits
    obtain ⟨equal, joined⟩ := classes.mp fits.equal
    have beside : ∀ other, memory.Apart dropped other → numbers dropped ≠ numbers other := by
      intro other apart
      have outside : other ≠ dropped := by
        rintro rfl
        exact wellFormed.apart_irrefl other apart
      rw [← joined]
      exact fits.apart kept other ((apart_merged_iff wellFormed different kept other).mpr
        (.inr ⟨other, outside, apart, .inl ⟨rfl, rfl⟩⟩))
    refine ⟨⟨equal, fun left right apart => ?_⟩, joined⟩
    by_cases leftDropped : left = dropped
    · exact leftDropped ▸ beside right (leftDropped ▸ apart)
    · by_cases rightDropped : right = dropped
      · exact rightDropped ▸ (beside left (rightDropped ▸ apart.symm)).symm
      · exact fits.apart left right ((apart_merged_iff wellFormed different left right).mpr
          (.inl ⟨leftDropped, rightDropped, apart⟩))
  · rintro ⟨fits, joined⟩
    refine ⟨classes.mpr ⟨fits.equal, joined⟩, fun left right apart => ?_⟩
    rcases (apart_merged_iff wellFormed different left right).mp apart with
      ⟨_, _, old⟩ | ⟨other, _, old, ⟨rfl, rfl⟩ | ⟨rfl, rfl⟩⟩
    · exact fits.apart _ _ old
    · rw [joined]
      exact fits.apart _ _ old
    · rw [joined]
      exact (fits.apart _ _ old).symm

end Merging

end Memory

end PauseFlow
