import PauseFlow.Flow.Verdict
import PauseFlow.Proofs.Data.Lookup
import PauseFlow.Proofs.Flow.Coverage
import PauseFlow.Proofs.Flow.Running

/-! Hints are true of every run. An exploration that ends by itself executes every place that a
run comes to from a memory that the run satisfies there, so the side that a run takes at a
condition is among the sides that were found feasible. -/
namespace PauseFlow

open Memory

namespace Verdicts

/-- The sides taken at a condition, none if it was not met. -/
def sidesAt (verdicts : Verdicts) (anchor : Anchor) : Sides :=
  (verdicts.sides.get? anchor).getD ⟨false, false⟩

private theorem sidesAt_report (verdicts : Verdicts) (anchor other : Anchor) (taken : Sides) :
    (verdicts.report anchor taken).sidesAt other =
      if other = anchor then (verdicts.sidesAt anchor).merge taken else verdicts.sidesAt other := by
  simp only [sidesAt, report, OrderedMap.get?_insert]
  split <;> rfl

private theorem sidesAt_foldl (events : List Event) (verdicts : Verdicts) (anchor : Anchor) :
    (((events.foldl observe verdicts).sidesAt anchor).thenTaken = true ↔
      (verdicts.sidesAt anchor).thenTaken = true ∨
        ∃ elseFeasible, .decided anchor true elseFeasible ∈ events) ∧
    (((events.foldl observe verdicts).sidesAt anchor).elseTaken = true ↔
      (verdicts.sidesAt anchor).elseTaken = true ∨
        ∃ thenFeasible, .decided anchor thenFeasible true ∈ events) := by
  induction events generalizing verdicts with
  | nil => simp
  | cons event rest ih =>
    rw [List.foldl_cons]
    refine ⟨(ih _).1.trans ?_, (ih _).2.trans ?_⟩
    all_goals
      cases event with
      | assigned target value => simp [observe]
      | decided other thenFeasible elseFeasible =>
        rw [observe, sidesAt_report]
        by_cases here : anchor = other
        · subst here
          simp [Sides.merge, exists_or, or_assoc]
        · simp [here]

/-- A side of a condition is taken if some execution found it feasible. -/
theorem sidesAt_ofEvents (events : List Event) (anchor : Anchor) :
    (((ofEvents events).sidesAt anchor).thenTaken = true ↔
      ∃ elseFeasible, .decided anchor true elseFeasible ∈ events) ∧
    (((ofEvents events).sidesAt anchor).elseTaken = true ↔
      ∃ thenFeasible, .decided anchor thenFeasible true ∈ events) := by
  have spread := sidesAt_foldl events empty anchor
  simpa [ofEvents, sidesAt, empty] using spread

end Verdicts

namespace HintKind

/-- The sides taken at a condition with the hint. -/
def sides : HintKind → Sides
  | alwaysTrue => ⟨true, false⟩
  | alwaysFalse => ⟨false, true⟩

/-- What the hint says of a condition. -/
def Says (kind : HintKind) (holds : Prop) : Prop :=
  match kind with
  | alwaysTrue => holds
  | alwaysFalse => ¬ holds

end HintKind

theorem Verdicts.sides_of_hint {verdicts : Verdicts} {anchor : Anchor} {kind : HintKind}
    (hint : (anchor, kind) ∈ verdicts.hints) : verdicts.sidesAt anchor = kind.sides := by
  obtain ⟨⟨other, sides⟩, member, shown⟩ := List.mem_filterMap.mp hint
  obtain ⟨found, verdict, same⟩ := Option.map_eq_some_iff.mp shown
  cases same
  rw [sidesAt, (OrderedMap.mem_entries_iff _ _ _).mp member, Option.getD_some]
  obtain ⟨thenTaken, elseTaken⟩ := sides
  cases thenTaken <;> cases elseTaken <;> cases verdict <;> rfl

section Covering

variable {table : ClassTable} {world : World table} {registry : Variables} {graph : FlowGraph}

/-- Where a run is, a covering report has executed a memory that the run satisfies. -/
theorem Report.Covers.exists_executed (legal : table.Legal) (sameTable : registry.table = table)
    (built : registry.Built AbstractValue.Discrete) (typed : graph.WellTyped registry)
    {start : Configuration} {report : Report} (covers : report.Covers graph registry start)
    {first current : Moment} (here : start.place = first.place)
    (models : start.memory.Models world registry first.env)
    (runs : graph.Runs world registry first current) :
    ∃ configuration ∈ report.executed, configuration.place = current.place ∧
      configuration.memory.Models world registry current.env := by
  induction runs with
  | refl => exact ⟨start, covers.started, here, models⟩
  | tail _ moves ih =>
    obtain ⟨configuration, executed, there, modelsThere⟩ := ih
    obtain ⟨next, successor, after, modelsAfter⟩ :=
      moves.followed legal sameTable built typed there modelsThere
    exact ⟨next, covers.closed executed next successor, after, modelsAfter⟩

/-- A run comes to a condition with an anchor, with certain values. -/
def FlowGraph.Meets (world : World table) (registry : Variables) (graph : FlowGraph)
    (first : Moment) (anchor : Anchor) (condition : Condition) (now : Environment) : Prop :=
  ∃ current, graph.Runs world registry first current ∧
    Instruction.StepsAll world registry (graph.block current.place).instructions current.env now ∧
    ∃ thenTarget elseTarget, (graph.block current.place).terminator =
      .branch condition thenTarget elseTarget (some anchor)

/-- Every side of a condition that a run takes is found feasible by some execution. -/
theorem Report.Covers.sides_of_meets (legal : table.Legal) (sameTable : registry.table = table)
    (built : registry.Built AbstractValue.Discrete) (typed : graph.WellTyped registry)
    {start : Configuration} {report : Report} (covers : report.Covers graph registry start)
    {first : Moment} (here : start.place = first.place)
    (models : start.memory.Models world registry first.env) {anchor : Anchor}
    {condition : Condition} {now : Environment}
    (meets : graph.Meets world registry first anchor condition now) :
    (condition.Holds world now →
      ((Verdicts.ofEvents report.events).sidesAt anchor).thenTaken = true) ∧
    (¬ condition.Holds world now →
      ((Verdicts.ofEvents report.events).sidesAt anchor).elseTaken = true) := by
  obtain ⟨current, runs, steps, thenTarget, elseTarget, branch⟩ := meets
  obtain ⟨configuration, executed, there, modelsThere⟩ :=
    covers.exists_executed legal sameTable built typed here models runs
  rw [← there] at steps branch
  obtain ⟨thenFeasible, elseFeasible, decided, thenSide, elseSide⟩ :=
    configuration.decided_of_branch legal sameTable built typed modelsThere steps branch
  have reported : .decided anchor thenFeasible elseFeasible ∈ report.events := by
    rw [covers.events]
    exact List.mem_flatMap.mpr ⟨configuration, executed, decided⟩
  have spread := Verdicts.sidesAt_ofEvents report.events anchor
  constructor
  · intro holds
    exact spread.1.mpr ⟨elseFeasible, thenSide holds ▸ reported⟩
  · intro fails
    exact spread.2.mpr ⟨thenFeasible, elseSide fails ▸ reported⟩

end Covering

/-- While there is a cell, look at it again and move on to any cell. -/
def cellLoop : FlowGraph where
  entry := ⟨0⟩
  blocks := [⟨[], .branch ⟨⟨0⟩, .different, .constant .null⟩ ⟨1⟩ ⟨2⟩ (some ⟨0⟩)⟩,
    ⟨[], .branch ⟨⟨0⟩, .equal, .constant .null⟩ ⟨2⟩ ⟨3⟩ (some ⟨1⟩)⟩,
    ⟨[], .returns⟩,
    ⟨[.havoc ⟨0⟩], .goto ⟨0⟩⟩]
  anchors := []

private theorem wellTyped_cellLoop : cellLoop.WellTyped cells := by
  have comparable : Comparable cells ⟨0⟩ (.constant .null) := by
    refine ⟨⟨.reference, rfl, rfl⟩, fun value member => ?_⟩
    rw [List.mem_singleton.mp member]
    exact .null
  intro block member
  simp only [cellLoop, List.mem_cons, List.not_mem_nil, or_false] at member
  rcases member with rfl | rfl | rfl | rfl
  · exact ⟨by simp, comparable⟩
  · exact ⟨by simp, comparable⟩
  · exact ⟨by simp, trivial⟩
  · exact ⟨by simp [Instruction.WellTyped], trivial⟩

/-- Hints are sound: if an exploration ends by itself, then whenever a run that satisfies its
start comes to a condition with a hint, the condition is true or false as the hint says. -/
theorem FlowGraph.hint_sound {registry : Variables} {graph : FlowGraph} {memory : Memory}
    (legal : registry.table.Legal) (reached : memory.Reachable AbstractValue.Discrete registry)
    (typed : graph.WellTyped registry) {start : BlockId} {budget : Nat} {cancelled : Nat → Bool}
    (exhaustive : (graph.explore registry start memory budget cancelled).IsExhaustive)
    {anchor : Anchor} {kind : HintKind}
    (hint : (anchor, kind) ∈ (Verdicts.ofEvents
      (graph.explore registry start memory budget cancelled).events).hints)
    {world : World registry.table} {env : Environment}
    (satisfied : memory.Satisfies world registry env) {condition : Condition} {now : Environment}
    (meets : graph.Meets world registry ⟨start, env⟩ anchor condition now) :
    kind.Says (condition.Holds world now) := by
  have covers := covers_of_isExhaustive exhaustive
  have models : memory.Models world registry env := ⟨reached.wellFormed, satisfied⟩
  obtain ⟨thenSide, elseSide⟩ :=
    covers.sides_of_meets legal rfl reached.built typed rfl models meets
  rw [Verdicts.sides_of_hint hint] at thenSide elseSide
  cases kind with
  | alwaysTrue =>
    by_contra fails
    exact absurd (elseSide fails) (by simp [HintKind.sides])
  | alwaysFalse =>
    intro holds
    exact absurd (thenSide holds) (by simp [HintKind.sides])

/-- The second look at a cell is not at `null`. -/
theorem hint_sound_in_loop :
    ¬ (⟨⟨0⟩, .equal, .constant .null⟩ : Condition).Holds cellWorld fun _ => .object 0 := by
  have satisfied : Satisfies cellWorld cells .empty fun _ => .object 0 :=
    satisfies_empty fun var => declared_cells var 0
  have notNull : (⟨⟨0⟩, .different, .constant .null⟩ : Condition).Holds cellWorld
      fun _ => .object 0 := fun isNull => isNull.1 rfl
  have meets : cellLoop.Meets cellWorld cells ⟨⟨0⟩, fun _ => .object 0⟩ ⟨1⟩
      ⟨⟨0⟩, .equal, .constant .null⟩ fun _ => .object 0 :=
    ⟨⟨⟨1⟩, fun _ => .object 0⟩, .single ⟨.nil _, .inl ⟨notNull, rfl⟩⟩, .nil _, _, _, rfl⟩
  have exhaustive : (cellLoop.explore cells ⟨0⟩ .empty 10 fun _ => false).IsExhaustive :=
    .inl (by decide +kernel)
  have hint : ((⟨1⟩, .alwaysFalse) : Anchor × HintKind) ∈ (Verdicts.ofEvents
      (cellLoop.explore cells ⟨0⟩ .empty 10 fun _ => false).events).hints := by decide +kernel
  exact FlowGraph.hint_sound ClassTable.legal_small (reachable_cells ⟨_, rfl, rfl⟩)
    wellTyped_cellLoop exhaustive hint satisfied meets

end PauseFlow
