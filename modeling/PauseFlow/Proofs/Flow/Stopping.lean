import PauseFlow.Proofs.Flow.Truncation

namespace PauseFlow

/-- An execution goes on in two places at most, and nowhere outside the graph. -/
theorem Configuration.length_successors_le (graph : FlowGraph) (registry : Variables)
    (here : Configuration) : (here.visit graph registry).successors.length ≤
      if here.place.index < graph.blocks.length then 2 else 0 := by
  unfold visit
  split
  · rename_i inside
    dsimp only
    split
    · exact Nat.zero_le 2
    · rename_i memory _
      dsimp only
      cases (graph.block here.place).terminator with
      | goto target => exact Nat.le_succ 1
      | branch condition thenTarget elseTarget anchor =>
        simp only [Visit.ofTerminator, Visit.ofBranch, List.length_append]
        split <;> split <;> simp
      | returns => exact Nat.zero_le 2
      | exits => exact Nat.zero_le 2
  · rename_i outside
    have missing : graph.blocks[here.place.index]? = none :=
      List.getElem?_eq_none (Nat.le_of_not_lt outside)
    simp [FlowGraph.block, missing, Instruction.runAll, Visit.ofTerminator]

namespace Exploration

variable {graph : FlowGraph} {registry : Variables} {stage next : Stage}

/-- The executions of blocks that belong to the graph. -/
def Stage.inside (graph : FlowGraph) (stage : Stage) : Nat :=
  stage.executed.countP fun earlier => earlier.place.index < graph.blocks.length

private theorem countP_index_lt_succ (blocks : Nat) (executed : List Configuration) :
    (executed.countP fun earlier => earlier.place.index < blocks + 1) =
      (executed.countP fun earlier => earlier.place.index < blocks) +
        executed.countP fun earlier => earlier.place = ⟨blocks⟩ := by
  induction executed with
  | nil => rfl
  | cons first rest ih =>
    have last : first.place = ⟨blocks⟩ ↔ first.place.index = blocks := by
      cases first.place
      simp
    simp only [List.countP_cons, ih, last, decide_eq_true_eq]
    split <;> split <;> split <;> omega

/-- Blocks are executed at most as often as each of them may be. -/
theorem countP_index_lt_le {executed : List Configuration} {bound : Nat}
    (each : ∀ place : BlockId, (executed.countP fun earlier => earlier.place = place) ≤ bound)
    (blocks : Nat) :
    (executed.countP fun earlier => earlier.place.index < blocks) ≤ bound * blocks := by
  induction blocks with
  | zero => simp
  | succ blocks ih =>
    have last := each ⟨blocks⟩
    rw [countP_index_lt_succ, Nat.mul_succ]
    omega

/-- What was asked for and what waits is paid for by executions, two for each and one for the
start, and no block was executed too often. -/
structure Economical (graph : FlowGraph) (stage : Stage) : Prop where
  paid : stage.progress.polls + stage.waiting.length ≤ 1 + 2 * stage.inside graph
  room : ∀ place : BlockId,
    (stage.executed.countP fun earlier => earlier.place = place) ≤ memoriesPerBlock

private theorem economical_start (graph : FlowGraph) (start : Configuration) :
    Economical graph (.start start) where
  paid := Nat.le_refl _
  room _ := Nat.zero_le _

private theorem Economical.turn (economical : Economical graph stage)
    (moves : stage.move graph registry = .turn next) : Economical graph next := by
  obtain ⟨turn, unsaturated⟩ := Stage.turn_of_move moves
  obtain ⟨first, rest, front, ⟨_, executed, waiting, _, _⟩ | ⟨fresh, executed, waiting, _, _⟩⟩ :=
    turn.effects
  · refine ⟨?_, fun place => executed ▸ economical.room place⟩
    have paid := economical.paid
    rw [front, List.length_cons] at paid
    rw [turn.polls_eq, waiting, Stage.inside, executed, ← Stage.inside]
    omega
  · have room := unsaturated first (by rw [front]; rfl) fresh
    rw [Progress.isSaturated, Visited.length_memoriesAt, decide_eq_false_iff_not,
      Nat.not_le] at room
    refine ⟨?_, fun place => ?_⟩
    · have paid := economical.paid
      have successors := first.length_successors_le graph registry
      rw [front, List.length_cons, Stage.inside] at paid
      rw [turn.polls_eq, waiting, Stage.inside, executed, List.countP_cons, List.length_append]
      by_cases inside : first.place.index < graph.blocks.length
      · rw [if_pos inside] at successors
        rw [if_pos (decide_eq_true inside)]
        omega
      · rw [if_neg inside] at successors
        omega
    · rw [executed, List.countP_cons]
      by_cases here : first.place = place
      · subst here
        rw [if_pos (decide_eq_true rfl)]
        exact room
      · rw [if_neg (by simpa using here)]
        exact economical.room place

private theorem Economical.spent (economical : Economical graph stage) :
    stage.progress.polls + stage.waiting.length ≤ 1 + 128 * graph.blocks.length := by
  have executions := countP_index_lt_le economical.room graph.blocks.length
  have paid := economical.paid
  rw [Stage.inside] at paid
  rw [memoriesPerBlock] at executions
  omega

private theorem Economical.poll_le (economical : Economical graph stage)
    (waits : stage.move graph registry ≠ .empty) :
    stage.progress.polls + 1 ≤ 1 + 128 * graph.blocks.length := by
  have spent := economical.spent
  have some := List.length_pos_iff.mpr (Stage.waiting_ne_nil waits)
  omega

/-- Each poll is for a configuration that waits. -/
theorem Economical.polls_le (economical : Economical graph stage) {cancelled : Nat → Bool}
    {budget : Nat} {report : Report} (run : Run graph registry cancelled budget stage report) :
    report.polls ≤ 1 + 128 * graph.blocks.length := by
  induction run with
  | empty _ => exact Nat.le_of_add_right_le economical.spent
  | interrupted waits _ => exact economical.poll_le waits
  | exhausted waits _ _ => exact economical.poll_le waits
  | turn moves _ _ ih => exact ih (economical.turn moves)

/-- Each poll but the last one is for a step. -/
theorem Run.polls_le_budget {cancelled : Nat → Bool} {budget : Nat} {report : Report}
    (run : Run graph registry cancelled budget stage report) :
    report.polls ≤ stage.progress.polls + budget + 1 := by
  induction run with
  | empty _ =>
    rw [Nat.add_assoc]
    exact Nat.le_add_right _ _
  | interrupted _ _ =>
    rw [Nat.add_right_comm]
    exact Nat.le_add_right _ _
  | exhausted _ _ _ =>
    rw [Nat.add_right_comm]
    exact Nat.le_add_right _ _
  | turn moves _ _ ih =>
    rw [(Stage.turn_of_move moves).1.polls_eq] at ih
    omega

end Exploration

/-- An exploration stops after polls that its budget and, whatever the budget is, the number of
blocks bound. So beyond that number the budget does not matter. -/
theorem FlowGraph.explore_stops (graph : FlowGraph) (registry : Variables) (start : BlockId)
    (memory : Memory) (cancelled : Nat → Bool) :
    (∀ budget, (graph.explore registry start memory budget cancelled).polls ≤
      min (budget + 1) (1 + 128 * graph.blocks.length)) ∧
    ∀ extra, graph.explore registry start memory (1 + 128 * graph.blocks.length + extra) cancelled =
      graph.explore registry start memory (1 + 128 * graph.blocks.length) cancelled := by
  have run := fun budget => (Exploration.Stage.start ⟨start, memory⟩).run_explore graph registry
    cancelled budget
  have bounded : ∀ budget, (graph.explore registry start memory budget cancelled).polls ≤
      1 + 128 * graph.blocks.length :=
    fun budget => (Exploration.economical_start graph ⟨start, memory⟩).polls_le (run budget)
  constructor
  · intro budget
    have byBudget := (run budget).polls_le_budget
    have none : (Exploration.Stage.start ⟨start, memory⟩).progress.polls = 0 := rfl
    rw [none, Nat.zero_add] at byBudget
    exact le_min byBudget (bounded budget)
  · intro extra
    rcases (run _).of_smaller (Nat.le_add_right (1 + 128 * graph.blocks.length) extra) with
      same | ⟨_, polls, _⟩
    · exact same
    · -- More polls than steps would be more than there can be.
      have few := bounded (1 + 128 * graph.blocks.length)
      have polls : (graph.explore registry start memory (1 + 128 * graph.blocks.length)
        cancelled).polls = 0 + (1 + 128 * graph.blocks.length) + 1 := polls
      omega

end PauseFlow
