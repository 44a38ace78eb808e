import PauseFlow.Proofs.Flow.Hints

/-! What reports say together. Reports about a condition are merged side by side, so verdicts and
hints depend on which reports there were, not on their order and repetition. -/
namespace PauseFlow.Verdicts

private theorem contains_foldl (events : List Event) (verdicts : Verdicts) (anchor : Anchor) :
    (events.foldl observe verdicts).sides.contains anchor = true ↔
      verdicts.sides.contains anchor = true ∨
        ∃ thenFeasible elseFeasible, .decided anchor thenFeasible elseFeasible ∈ events := by
  induction events generalizing verdicts with
  | nil => simp
  | cons event rest ih =>
    rw [List.foldl_cons, ih]
    cases event with
    | assigned target value => simp [observe]
    | decided other thenFeasible elseFeasible =>
      rw [observe, report, OrderedMap.contains_insert]
      by_cases here : anchor = other
      · subst here
        exact iff_of_true (.inl (.inl rfl)) (.inr ⟨_, _, List.mem_cons_self⟩)
      · simp [here]

/-- The conditions with a verdict are the ones that were reported on. -/
theorem contains_ofEvents (events : List Event) (anchor : Anchor) :
    (ofEvents events).sides.contains anchor = true ↔
      ∃ thenFeasible elseFeasible, .decided anchor thenFeasible elseFeasible ∈ events := by
  have spread := contains_foldl events empty anchor
  simpa [ofEvents, empty, OrderedMap.contains_eq_isSome] using spread

/-- What is known of a condition says which sides were feasible in some report about it. -/
theorem get?_ofEvents_iff (events : List Event) (anchor : Anchor) (sides : Sides) :
    (ofEvents events).sides.get? anchor = some sides ↔
      (∃ thenFeasible elseFeasible, .decided anchor thenFeasible elseFeasible ∈ events) ∧
        (sides.thenTaken = true ↔ ∃ elseFeasible, .decided anchor true elseFeasible ∈ events) ∧
        (sides.elseTaken = true ↔ ∃ thenFeasible, .decided anchor thenFeasible true ∈ events) := by
  have taken := sidesAt_ofEvents events anchor
  rw [← contains_ofEvents, ← taken.1, ← taken.2, ← Bool.eq_iff_iff, ← Bool.eq_iff_iff,
    OrderedMap.contains_eq_isSome, sidesAt]
  cases (ofEvents events).sides.get? anchor with
  | none => simp
  | some known =>
    obtain ⟨thenTaken, elseTaken⟩ := known
    obtain ⟨otherThen, otherElse⟩ := sides
    simp [eq_comm]

/-- The same reports, in any order and number, leave the same verdicts. -/
theorem ofEvents_eq_of_same {events others : List Event}
    (same : ∀ anchor thenFeasible elseFeasible,
      .decided anchor thenFeasible elseFeasible ∈ events ↔
        .decided anchor thenFeasible elseFeasible ∈ others) :
    ofEvents events = ofEvents others := by
  have lookups : ∀ anchor, (ofEvents events).sides.get? anchor =
      (ofEvents others).sides.get? anchor := by
    intro anchor
    ext sides
    rw [get?_ofEvents_iff, get?_ofEvents_iff]
    simp only [same]
  exact congrArg mk (OrderedMap.ext_get? lookups)

/-- A condition has the hint of the one side that was taken. -/
theorem mem_hints_iff {verdicts : Verdicts} {anchor : Anchor} {kind : HintKind} :
    (anchor, kind) ∈ verdicts.hints ↔ verdicts.sidesAt anchor = kind.sides := by
  refine ⟨sides_of_hint, fun taken => ?_⟩
  rw [sidesAt] at taken
  cases known : verdicts.sides.get? anchor with
  | none =>
    rw [known] at taken
    cases kind <;> cases taken
  | some sides =>
    rw [known, Option.getD_some] at taken
    refine List.mem_filterMap.mpr ⟨_, (OrderedMap.mem_entries_iff _ _ _).mpr known, ?_⟩
    cases kind <;> rw [taken] <;> rfl

private theorem hints_ascending (verdicts : Verdicts) :
    verdicts.hints.Pairwise fun earlier later => earlier.1.number < later.1.number := by
  refine verdicts.sides.ascending.filterMap _ fun entry other before hint shown next follows => ?_
  obtain ⟨_, _, rfl⟩ := Option.map_eq_some_iff.mp shown
  obtain ⟨_, _, rfl⟩ := Option.map_eq_some_iff.mp follows
  exact of_decide_eq_true before

/-- Verdicts and hints depend on the set of reports. A condition has a hint exactly if one of its
sides was feasible in some report and the other one in none. -/
theorem hints_of_reports {events others : List Event}
    (same : ∀ anchor thenFeasible elseFeasible,
      .decided anchor thenFeasible elseFeasible ∈ events ↔
        .decided anchor thenFeasible elseFeasible ∈ others) :
    (∀ anchor, (ofEvents events).verdict? anchor = (ofEvents others).verdict? anchor) ∧
      (ofEvents events).hints = (ofEvents others).hints ∧
      ((ofEvents events).hints.Pairwise fun earlier later => earlier.1.number < later.1.number) ∧
      ∀ anchor,
        ((anchor, .alwaysTrue) ∈ (ofEvents events).hints ↔
          (∃ elseFeasible, .decided anchor true elseFeasible ∈ events) ∧
            ∀ thenFeasible, .decided anchor thenFeasible true ∉ events) ∧
        ((anchor, .alwaysFalse) ∈ (ofEvents events).hints ↔
          (∃ thenFeasible, .decided anchor thenFeasible true ∈ events) ∧
            ∀ elseFeasible, .decided anchor true elseFeasible ∉ events) ∧
        ((∀ thenFeasible elseFeasible, .decided anchor thenFeasible elseFeasible ∈ events →
              thenFeasible = false ∧ elseFeasible = false) ∨
            ((∃ elseFeasible, .decided anchor true elseFeasible ∈ events) ∧
              ∃ thenFeasible, .decided anchor thenFeasible true ∈ events) →
          ∀ kind, (anchor, kind) ∉ (ofEvents events).hints) := by
  have equal := ofEvents_eq_of_same same
  refine ⟨fun anchor => by rw [equal], by rw [equal], hints_ascending _, fun anchor => ?_⟩
  have taken := sidesAt_ofEvents events anchor
  have alwaysTrue : (anchor, .alwaysTrue) ∈ (ofEvents events).hints ↔
      (∃ elseFeasible, .decided anchor true elseFeasible ∈ events) ∧
        ∀ thenFeasible, .decided anchor thenFeasible true ∉ events := by
    rw [mem_hints_iff, ← not_exists, ← taken.1, ← taken.2, HintKind.sides]
    cases (ofEvents events).sidesAt anchor
    simp
  have alwaysFalse : (anchor, .alwaysFalse) ∈ (ofEvents events).hints ↔
      (∃ thenFeasible, .decided anchor thenFeasible true ∈ events) ∧
        ∀ elseFeasible, .decided anchor true elseFeasible ∉ events := by
    rw [mem_hints_iff, ← not_exists, ← taken.1, ← taken.2, HintKind.sides]
    cases (ofEvents events).sidesAt anchor
    simp [and_comm]
  refine ⟨alwaysTrue, alwaysFalse, fun undecided kind hint => ?_⟩
  rcases undecided with infeasible | ⟨⟨elseFeasible, someThen⟩, thenFeasible, someElse⟩
  · cases kind with
    | alwaysTrue =>
      obtain ⟨_, reported⟩ := (alwaysTrue.mp hint).1
      exact absurd (infeasible _ _ reported).1 (by decide)
    | alwaysFalse =>
      obtain ⟨_, reported⟩ := (alwaysFalse.mp hint).1
      exact absurd (infeasible _ _ reported).2 (by decide)
  · cases kind with
    | alwaysTrue => exact (alwaysTrue.mp hint).2 thenFeasible someElse
    | alwaysFalse => exact (alwaysFalse.mp hint).2 elseFeasible someThen

/-- Three conditions. The first one is met again at the end. -/
def threeConditions : List Event :=
  [.decided ⟨2⟩ true false, .decided ⟨1⟩ false true, .decided ⟨3⟩ false false,
    .decided ⟨2⟩ true false]

theorem hints_of_reports_once :
    (ofEvents threeConditions).hints = (ofEvents threeConditions.tail).hints ∧
      (⟨2⟩, .alwaysTrue) ∈ (ofEvents threeConditions).hints := by
  have same : ∀ anchor thenFeasible elseFeasible,
      Event.decided anchor thenFeasible elseFeasible ∈ threeConditions ↔
        Event.decided anchor thenFeasible elseFeasible ∈ threeConditions.tail := by
    intro anchor thenFeasible elseFeasible
    simp only [threeConditions, List.tail_cons, List.mem_cons]
    tauto
  obtain ⟨_, hints, _, shown⟩ := hints_of_reports same
  exact ⟨hints, (shown ⟨2⟩).1.mpr ⟨⟨false, by decide⟩, by decide⟩⟩

end PauseFlow.Verdicts
