import PauseFlow.Proofs.Memory.Forgetting
import PauseFlow.Proofs.Memory.Narrowing

namespace PauseFlow.Memory

variable {memory : Memory} {registry : Variables} {left right var other : Var}
  {value : AbstractValue}

theorem areEqual_refl (memory : Memory) (var : Var) : memory.areEqual var var = true :=
  (areEqual_iff memory var var).mpr rfl

theorem areEqual_symm (same : memory.areEqual left right = true) :
    memory.areEqual right left = true :=
  (areEqual_iff memory right left).mpr ((areEqual_iff memory left right).mp same).symm

theorem areEqual_trans {middle : Var} (first : memory.areEqual left middle = true)
    (second : memory.areEqual middle right = true) : memory.areEqual left right = true :=
  (areEqual_iff memory left right).mpr
    (((areEqual_iff memory left middle).mp first).trans
      ((areEqual_iff memory middle right).mp second))

theorem value_eq_of_areEqual (same : memory.areEqual left right = true) :
    memory.value registry left = memory.value registry right := by
  rw [Memory.value, (areEqual_iff memory left right).mp same, Memory.value]

/-- A merge joins two classes and no others. -/
theorem areEqual_unite_iff (wellFormed : WellFormed memory)
    (accepted : (memory.unite registry left right).1 = true) (first second : Var) :
    (memory.unite registry left right).2.areEqual first second = true ↔
      memory.areEqual first second = true ∨
      (memory.areEqual first left = true ∧ memory.areEqual right second = true) ∨
      (memory.areEqual first right = true ∧ memory.areEqual left second = true) := by
  simp only [areEqual_iff]
  rcases unite_cases memory registry left right with
    ⟨same, result⟩ | ⟨_, _, result⟩ | ⟨different, _, _, _, _, result⟩
  · rw [result]
    constructor
    · exact .inl
    · intro either
      rcases either with old | ⟨inLeft, inRight⟩ | ⟨inRight, inLeft⟩
      · exact old
      · exact inLeft.trans (same.trans inRight)
      · exact inRight.trans (same.symm.trans inLeft)
  · rw [result] at accepted
    cases accepted
  · rw [result]
    have leftTop := root_top wellFormed.grounded left
    have rightTop := root_top wellFormed.grounded right
    simp only [root_merged wellFormed different leftTop rightTop]
    rw [relabel_eq_relabel_iff different, eq_comm (a := memory.root second),
      eq_comm (a := memory.root second)]

theorem value_unite_of_outside (wellFormed : WellFormed memory)
    (notLeft : memory.areEqual left var ≠ true) (notRight : memory.areEqual right var ≠ true) :
    (memory.unite registry left right).2.value registry var = memory.value registry var := by
  rw [ne_eq, areEqual_iff] at notLeft notRight
  rcases unite_cases memory registry left right with
    ⟨_, result⟩ | ⟨_, _, result⟩ | ⟨different, _, _, _, _, result⟩
  · rw [result]
  · rw [result]
  · rw [result, value_merged wellFormed different (root_top wellFormed.grounded left)
      (root_top wellFormed.grounded right),
      if_neg (not_or.mpr ⟨Ne.symm notLeft, Ne.symm notRight⟩)]

theorem value_unite_left (wellFormed : WellFormed memory)
    (accepted : (memory.unite registry left right).1 = true)
    (different : memory.areEqual left right ≠ true) :
    (memory.unite registry left right).2.value registry left =
      memory.overlap registry left right := by
  rw [ne_eq, areEqual_iff] at different
  rcases unite_cases memory registry left right with
    ⟨same, _⟩ | ⟨_, _, result⟩ | ⟨_, _, _, _, _, result⟩
  · exact absurd same different
  · rw [result] at accepted
    cases accepted
  · rw [result, value_merged wellFormed different (root_top wellFormed.grounded left)
      (root_top wellFormed.grounded right), if_pos (.inl rfl)]

theorem areEqual_narrow (memory : Memory) (registry : Variables) (var : Var)
    (value : AbstractValue) (first second : Var) :
    (memory.narrow registry var value).2.areEqual first second = memory.areEqual first second := by
  rcases narrow_cases memory registry var value with ⟨_, result⟩ | ⟨_, _, result⟩
  · rw [result]
  · rw [result]
    rfl

theorem value_narrow_of_outside (outside : memory.areEqual var other ≠ true) :
    (memory.narrow registry var value).2.value registry other = memory.value registry other := by
  rw [ne_eq, areEqual_iff] at outside
  rcases narrow_cases memory registry var value with ⟨_, result⟩ | ⟨_, _, result⟩
  · rw [result]
  · rw [result, value_withFact, if_neg (Ne.symm outside)]

theorem value_narrow_self (accepted : (memory.narrow registry var value).1 = true) :
    (memory.narrow registry var value).2.value registry var =
      memory.narrowed registry var value := by
  rcases narrow_cases memory registry var value with ⟨_, result⟩ | ⟨_, _, result⟩
  · rw [result] at accepted
    cases accepted
  · rw [result, value_withFact, if_pos rfl]

/-- A variable shares its class with no other one. -/
def Lonely (memory : Memory) (var : Var) : Prop :=
  ∀ other, memory.areEqual var other = true → other = var

/-- A variable has no fact and shares its class with no other one. -/
structure Untouched (memory : Memory) (var : Var) : Prop where
  unknown : memory.facts.get? var = none
  lonely : memory.Lonely var

theorem untouched_empty (var : Var) : Untouched .empty var where
  unknown := rfl
  lonely _ same := (of_decide_eq_true same).symm

private theorem Lonely.root_eq (lonely : memory.Lonely var) (wellFormed : WellFormed memory) :
    memory.root var = var :=
  lonely _ ((areEqual_iff memory _ _).mpr (root_root wellFormed.grounded var).symm)

theorem Untouched.value_eq (untouched : memory.Untouched var) (wellFormed : WellFormed memory)
    (registry : Variables) : memory.value registry var = registry.declared var := by
  rw [Memory.value, classValue, untouched.lonely.root_eq wellFormed, untouched.unknown]
  rfl

theorem Untouched.narrow (untouched : memory.Untouched other)
    (outside : memory.areEqual var other ≠ true) (wellFormed : WellFormed memory) :
    (memory.narrow registry var value).2.Untouched other := by
  refine ⟨?_, fun another same => ?_⟩
  · rw [ne_eq, areEqual_iff, untouched.lonely.root_eq wellFormed] at outside
    rcases narrow_cases memory registry var value with ⟨_, result⟩ | ⟨_, _, result⟩
    · rw [result]
      exact untouched.unknown
    · rw [result]
      simp [withFact, Ne.symm outside, untouched.unknown]
  · rw [areEqual_narrow] at same
    exact untouched.lonely another same

theorem Lonely.unite (lonely : memory.Lonely var) (wellFormed : WellFormed memory)
    (accepted : (memory.unite registry left right).1 = true) (notLeft : var ≠ left)
    (notRight : var ≠ right) : (memory.unite registry left right).2.Lonely var := by
  intro other same
  rcases (areEqual_unite_iff wellFormed accepted var other).mp same with
    old | ⟨inLeft, _⟩ | ⟨inRight, _⟩
  · exact lonely other old
  · exact absurd (lonely left inLeft).symm notLeft
  · exact absurd (lonely right inRight).symm notRight

theorem Untouched.unite (untouched : memory.Untouched var) (wellFormed : WellFormed memory)
    (accepted : (memory.unite registry left right).1 = true) (notLeft : var ≠ left)
    (notRight : var ≠ right) : (memory.unite registry left right).2.Untouched var := by
  refine ⟨?_, untouched.lonely.unite wellFormed accepted notLeft notRight⟩
  have outside : ∀ {side : Var}, var ≠ side → var ≠ memory.root side := by
    intro side different here
    have same := untouched.lonely side ((areEqual_iff memory var side).mpr
      ((untouched.lonely.root_eq wellFormed).trans here))
    exact different same.symm
  rcases unite_cases memory registry left right with
    ⟨_, result⟩ | ⟨_, _, result⟩ | ⟨_, _, _, _, _, result⟩
  · rw [result]
    exact untouched.unknown
  · rw [result]
    exact untouched.unknown
  · rw [result, get?_facts_merged, if_neg (outside notLeft), if_neg (outside notRight)]
    exact untouched.unknown

section Growth

variable {old new : Variables}

/-- What is known of an issued variable does not depend on variables issued later. -/
theorem WellFormed.value_of_grows (wellFormed : WellFormed memory)
    (grows : Variables.Grows old new) (issued : old.Issued var) :
    memory.value new var = memory.value old var := by
  unfold Memory.value classValue
  by_cases own : memory.root var = var
  · rw [own, grows.declared issued]
  · obtain ⟨known, found⟩ := wellFormed.known_of_ne_root own
    rw [found, Option.getD_some, Option.getD_some]

theorem WellFormed.narrow_of_grows (wellFormed : WellFormed memory)
    (grows : Variables.Grows old new) (issued : old.Issued var) (value : AbstractValue) :
    memory.narrow new var value = memory.narrow old var value := by
  have known : memory.classValue new (memory.root var) = memory.classValue old (memory.root var) :=
    wellFormed.value_of_grows grows issued
  simp only [Memory.narrow, known, grows.table]

theorem WellFormed.unite_of_grows (wellFormed : WellFormed memory)
    (grows : Variables.Grows old new) (leftIssued : old.Issued left)
    (rightIssued : old.Issued right) :
    memory.unite new left right = memory.unite old left right := by
  have leftKnown : memory.classValue new (memory.root left) =
      memory.classValue old (memory.root left) := wellFormed.value_of_grows grows leftIssued
  have rightKnown : memory.classValue new (memory.root right) =
      memory.classValue old (memory.root right) := wellFormed.value_of_grows grows rightIssued
  simp only [Memory.unite, leftKnown, rightKnown, grows.table]

end Growth

end PauseFlow.Memory
