import PauseFlow.Proofs.Memory.Coherence

/-! Uniting two variables refines the partition into classes by one merge. The merged class knows
what both classes knew, differs from what either of them differed from, and excludes what either
of them excluded; all other classes stay as they were. -/
namespace PauseFlow.Memory

/-- The second memory is the first one with the classes of two variables merged. -/
structure Merges (registry : Variables) (left right : Var) (old new : Memory) : Prop where
  equal : ∀ first second, new.areEqual first second = true ↔
    old.areEqual first second = true ∨
      (old.areEqual first left = true ∧ old.areEqual second right = true) ∨
      (old.areEqual first right = true ∧ old.areEqual second left = true)
  distinct : ∀ first second, new.areDistinct first second = true ↔
    ∃ oldFirst oldSecond, new.areEqual oldFirst first = true ∧
      new.areEqual oldSecond second = true ∧ old.areDistinct oldFirst oldSecond = true
  value : old.areEqual left right ≠ true → ∀ var, new.areEqual var left = true →
    new.value registry var =
      (old.value registry left).meet registry.table (old.value registry right)
  exclusions : ∀ var, new.areEqual var left = true → ∀ constant,
    constant ∈ new.exclusions (new.root var) ↔
      constant ∈ old.exclusions (old.root left) ∨ constant ∈ old.exclusions (old.root right)
  otherValue : ∀ var, new.areEqual var left ≠ true →
    new.value registry var = old.value registry var
  otherExclusions : ∀ var, new.areEqual var left ≠ true →
    new.exclusions (new.root var) = old.exclusions (old.root var)
  unchanged : old.areEqual left right = true → new = old

variable {memory : Memory} {registry : Variables} {left right : Var}

/-- Within a class there is nothing to merge. -/
theorem merges_self (registry : Variables) (same : memory.areEqual left right = true) :
    Merges registry left right memory memory where
  equal first second := by
    refine ⟨.inl, fun either => ?_⟩
    rcases either with old | ⟨inLeft, inRight⟩ | ⟨inRight, inLeft⟩
    · exact old
    · exact areEqual_trans inLeft (areEqual_trans same (areEqual_symm inRight))
    · exact areEqual_trans inRight (areEqual_trans (areEqual_symm same) (areEqual_symm inLeft))
  distinct first second := by
    refine ⟨fun apart => ⟨first, second, areEqual_refl memory first, areEqual_refl memory second,
      apart⟩, fun given => ?_⟩
    obtain ⟨oldFirst, oldSecond, sameFirst, sameSecond, apart⟩ := given
    rw [areDistinct_iff] at apart ⊢
    rwa [← (areEqual_iff memory _ _).mp sameFirst, ← (areEqual_iff memory _ _).mp sameSecond]
  value different := absurd same different
  exclusions var inLeft constant := by
    rw [(areEqual_iff memory var left).mp inLeft, (areEqual_iff memory left right).mp same, or_self]
  otherValue _ _ := rfl
  otherExclusions _ _ := rfl
  unchanged _ := rfl

/-- The pairs of a merged memory are the old ones, read at the new roots. -/
theorem apart_merged_relabel_iff (wellFormed : WellFormed memory) {kept dropped : Var}
    (different : kept ≠ dropped) (unrelated : ¬ memory.Apart kept dropped) {value : AbstractValue}
    (first second : Var) :
    (memory.merged kept dropped value).Apart first second ↔
      ∃ oldFirst oldSecond, relabel dropped kept oldFirst = first ∧
        relabel dropped kept oldSecond = second ∧ memory.Apart oldFirst oldSecond := by
  rw [apart_merged_iff wellFormed different]
  constructor
  · rintro (⟨firstFree, secondFree, apart⟩ | ⟨other, otherFree, apart, ends⟩)
    · exact ⟨first, second, relabel_of_ne firstFree, relabel_of_ne secondFree, apart⟩
    · rcases ends with ⟨inKept, beyond⟩ | ⟨beyond, inKept⟩
      · exact ⟨dropped, other, (relabel_self _ _).trans inKept.symm,
          (relabel_of_ne otherFree).trans beyond.symm, apart⟩
      · exact ⟨other, dropped, (relabel_of_ne otherFree).trans beyond.symm,
          (relabel_self _ _).trans inKept.symm, apart.symm⟩
  · rintro ⟨oldFirst, oldSecond, rfl, rfl, apart⟩
    by_cases firstDropped : oldFirst = dropped
    · subst firstDropped
      have secondFree : oldSecond ≠ oldFirst := by
        rintro rfl
        exact wellFormed.apart_irrefl _ apart
      rw [relabel_self, relabel_of_ne secondFree]
      exact .inr ⟨oldSecond, secondFree, apart, .inl ⟨rfl, rfl⟩⟩
    · rw [relabel_of_ne firstDropped]
      by_cases secondDropped : oldSecond = dropped
      · subst secondDropped
        rw [relabel_self]
        exact .inr ⟨oldFirst, firstDropped, apart.symm, .inr ⟨rfl, rfl⟩⟩
      · rw [relabel_of_ne secondDropped]
        exact .inl ⟨firstDropped, secondDropped, apart⟩

/-- The class of one root takes in the class of another one. -/
theorem merges_merged (wellFormed : WellFormed memory) (registry : Variables)
    (different : memory.root left ≠ memory.root right)
    (unrelated : ¬ memory.Apart (memory.root left) (memory.root right)) :
    Merges registry left right memory (memory.merged (memory.root left) (memory.root right)
      (memory.overlap registry left right)) := by
  have leftTop := root_top wellFormed.grounded left
  have rightTop := root_top wellFormed.grounded right
  have root_new (var : Var) : (memory.merged (memory.root left) (memory.root right)
      (memory.overlap registry left right)).root var =
        relabel (memory.root right) (memory.root left) (memory.root var) :=
    root_merged wellFormed different leftTop rightTop var
  have value_new (var : Var) : (memory.merged (memory.root left) (memory.root right)
      (memory.overlap registry left right)).value registry var =
        if memory.root var = memory.root left ∨ memory.root var = memory.root right then
          memory.overlap registry left right else memory.value registry var :=
    value_merged wellFormed different leftTop rightTop var
  have inClass_iff (var : Var) : (memory.merged (memory.root left) (memory.root right)
      (memory.overlap registry left right)).areEqual var left = true ↔
        memory.root var = memory.root left ∨ memory.root var = memory.root right := by
    rw [areEqual_iff, root_new, root_new, relabel_of_ne different]
    by_cases inRight : memory.root var = memory.root right
    · simp [inRight]
    · simp [relabel_of_ne inRight, inRight]
  constructor
  case equal =>
    intro first second
    simp only [areEqual_iff, root_new, relabel_eq_relabel_iff different]
  case distinct =>
    intro first second
    simp only [areDistinct_iff, areEqual_iff, root_new,
      apart_merged_relabel_iff wellFormed different unrelated]
    constructor
    · rintro ⟨oldFirst, oldSecond, isFirst, isSecond, apart⟩
      have tops := wellFormed.top_of_apart apart
      rw [← root_of_top tops.1] at isFirst apart
      rw [← root_of_top tops.2] at isSecond apart
      exact ⟨oldFirst, oldSecond, isFirst, isSecond, apart⟩
    · rintro ⟨oldFirst, oldSecond, isFirst, isSecond, apart⟩
      exact ⟨memory.root oldFirst, memory.root oldSecond, isFirst, isSecond, apart⟩
  case value =>
    intro _ var inClass
    rw [value_new, if_pos ((inClass_iff var).mp inClass)]
    rfl
  case exclusions =>
    intro var inClass constant
    have top : (memory.merged (memory.root left) (memory.root right)
        (memory.overlap registry left right)).root var = memory.root left := by
      rw [(areEqual_iff _ var left).mp inClass, root_new, relabel_of_ne different]
    rw [top, exclusions_merged different, if_pos rfl, mem_appendNew_iff]
  case otherValue =>
    intro var outside
    rw [value_new, if_neg (mt (inClass_iff var).mpr outside)]
  case otherExclusions =>
    intro var outside
    have ⟨notLeft, notRight⟩ := not_or.mp (mt (inClass_iff var).mpr outside)
    rw [root_new, relabel_of_ne notRight, exclusions_merged different, if_neg notLeft,
      if_neg notRight]
  case unchanged =>
    exact fun same => absurd ((areEqual_iff memory left right).mp same) different

/-- Uniting, where it is accepted, merges the two classes; within a class it changes nothing. -/
theorem Arises.unite_merges (arises : Arises registry memory)
    (accepted : (memory.unite registry left right).1 = true) :
    Merges registry left right memory (memory.unite registry left right).2 := by
  rcases unite_cases memory registry left right with
    ⟨same, result⟩ | ⟨_, _, result⟩ | ⟨different, unrelated, _, _, _, result⟩
  · rw [result]
    exact merges_self registry ((areEqual_iff memory left right).mpr same)
  · rw [result] at accepted
    cases accepted
  · rw [result]
    exact merges_merged arises.wellFormed registry different unrelated

/-- The number `x` differs from `z`, and `y` is not 5. -/
def apartMemory : Memory :=
  [Operation.assume ⟨⟨0⟩, .different, .var ⟨2⟩⟩,
    .assume ⟨⟨1⟩, .different, .constant (.int 5)⟩].foldl
      (fun memory operation => (operation.run threeNumbers memory).2) .empty

/-- United with `x`, also `y` differs from `z`, and also `x` is not 5. -/
theorem unite_merges_numbers :
    Merges threeNumbers ⟨0⟩ ⟨1⟩ apartMemory (apartMemory.unite threeNumbers ⟨0⟩ ⟨1⟩).2 ∧
      apartMemory.areDistinct ⟨1⟩ ⟨2⟩ = false ∧
      (apartMemory.unite threeNumbers ⟨0⟩ ⟨1⟩).2.areDistinct ⟨1⟩ ⟨2⟩ = true ∧
      (apartMemory.unite threeNumbers ⟨0⟩ ⟨1⟩).2.exclusions ⟨0⟩ = [.int 5] :=
  ⟨Arises.unite_merges ((Arises.start threeNumbers).operateAll _ (by decide)) (by decide),
    by decide, by decide, by decide⟩

end PauseFlow.Memory
