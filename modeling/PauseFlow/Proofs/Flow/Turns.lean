import Mathlib.Logic.Relation
import PauseFlow.Flow.Exploration

/-! An exploration turn by turn. A turn takes the front of the queue and skips or executes it;
whatever turns keep is true of the report. -/
namespace PauseFlow

/-- The exploration ended because nothing was left to explore. -/
def Report.IsExhaustive (report : Report) : Prop :=
  report.outcome = .completed ∨ report.outcome = .infeasible

namespace Exploration

/-- Where an exploration stands. -/
structure Stage where
  queue : Queue Configuration
  progress : Progress

namespace Stage

def start (configuration : Configuration) : Stage := ⟨.ofList [configuration], .start⟩

/-- What was executed so far, the latest first. -/
def executed (stage : Stage) : List Configuration := stage.progress.visited.configurations

/-- What waits to be executed, the next one first. -/
def waiting (stage : Stage) : List Configuration := stage.queue.toList

end Stage

/-- The front of the queue was executed before and is skipped, or it is executed now and its
successors join the queue. -/
inductive Turn (graph : FlowGraph) (registry : Variables) : Stage → Stage → Prop where
  | skip {stage : Stage} {first : Configuration} {rest : Queue Configuration}
      (popped : stage.queue.pop? = some (first, rest)) (known : first ∈ stage.executed) :
      Turn graph registry stage ⟨rest, { stage.progress.poll with completed := true }⟩
  | visit {stage : Stage} {first : Configuration} {rest : Queue Configuration}
      (popped : stage.queue.pop? = some (first, rest)) (fresh : first ∉ stage.executed) :
      Turn graph registry stage ⟨rest.append (first.visit graph registry).successors,
        stage.progress.poll.record first (first.visit graph registry)⟩

def Turns (graph : FlowGraph) (registry : Variables) : Stage → Stage → Prop :=
  Relation.ReflTransGen (Turn graph registry)

/-- A turn moves the first one that waits to the executed ones, with its successors at the end of
those that wait, unless it is there already. -/
theorem Turn.effects {graph : FlowGraph} {registry : Variables} {before after : Stage}
    (turn : Turn graph registry before after) :
    ∃ first rest, before.waiting = first :: rest ∧
      ((first ∈ before.executed ∧ after.executed = before.executed ∧ after.waiting = rest ∧
          after.progress.completed = true ∧ after.progress.events = before.progress.events) ∨
        (first ∉ before.executed ∧ after.executed = first :: before.executed ∧
          after.waiting = rest ++ (first.visit graph registry).successors ∧
          after.progress.completed =
            (before.progress.completed || (first.visit graph registry).finished) ∧
          after.progress.events =
            (first.visit graph registry).events.reverse ++ before.progress.events)) := by
  cases turn with
  | skip popped known =>
    exact ⟨_, _, Queue.toList_of_pop? popped, .inl ⟨known, rfl, rfl, rfl, rfl⟩⟩
  | visit popped fresh =>
    exact ⟨_, _, Queue.toList_of_pop? popped,
      .inr ⟨fresh, rfl, Queue.toList_append _ _, rfl, rfl⟩⟩

/-- How an exploration ends: nothing waits any more, or one more poll stops it. -/
inductive Ends : Stage → Report → Prop where
  | emptied {last : Stage} (empty : last.queue.pop? = none) :
      Ends last (last.progress.report (if last.progress.completed then .completed else .infeasible))
  | stopped {last : Stage} {outcome : Outcome}
      (early : outcome = .cancelled ∨ outcome = .exhausted) :
      Ends last (last.progress.poll.report outcome)

/-- How an exploration goes on as long as neither a cancellation nor its budget stops it. -/
inductive Move where
  /-- Nothing waits any more. -/
  | empty
  /-- The block of the front was executed from as many memories as allowed. -/
  | saturated
  | turn (next : Stage)

def Stage.move (graph : FlowGraph) (registry : Variables) (stage : Stage) : Move :=
  match stage.queue.pop? with
  | none => .empty
  | some (first, rest) =>
    if stage.progress.visited.contains first then
      .turn ⟨rest, { stage.progress.poll with completed := true }⟩
    else if stage.progress.isSaturated first.place then .saturated
    else .turn ⟨rest.append (first.visit graph registry).successors,
      stage.progress.poll.record first (first.visit graph registry)⟩

def Stage.explore (graph : FlowGraph) (registry : Variables) (cancelled : Nat → Bool)
    (budget : Nat) (stage : Stage) : Report :=
  Exploration.explore graph registry cancelled budget stage.queue stage.progress

/-- The report of an exploration with nothing left to explore. -/
def Stage.conclude (stage : Stage) : Report :=
  stage.progress.report (if stage.progress.completed then .completed else .infeasible)

section Moves

variable {graph : FlowGraph} {registry : Variables} {stage next : Stage}
  {cancelled : Nat → Bool} {budget : Nat}

/-- A turn is taken with a configuration that was executed before, or with one whose block has
room for another memory. -/
theorem Stage.turn_of_move (moves : stage.move graph registry = .turn next) :
    Turn graph registry stage next ∧ ∀ first ∈ stage.waiting.head?, first ∉ stage.executed →
      stage.progress.isSaturated first.place = false := by
  unfold Stage.move at moves
  split at moves
  · cases moves
  · rename_i first rest popped
    have front : stage.waiting.head? = some first := by
      rw [Stage.waiting, Queue.toList_of_pop? popped, List.head?_cons]
    rw [front]
    split at moves
    · rename_i known
      rw [Visited.contains_iff] at known
      cases moves
      refine ⟨.skip popped known, fun again same fresh => ?_⟩
      cases same
      exact absurd known fresh
    · rename_i fresh
      rw [Visited.contains_iff] at fresh
      split at moves
      · cases moves
      · rename_i room
        cases moves
        refine ⟨.visit popped fresh, fun again same _ => ?_⟩
        cases same
        exact Bool.eq_false_iff.mpr room

theorem Stage.waiting_ne_nil (waits : stage.move graph registry ≠ .empty) : stage.waiting ≠ [] := by
  cases popped : stage.queue.pop? with
  | none => exact absurd (by rw [Stage.move, popped]) waits
  | some front =>
    rw [Stage.waiting, Queue.toList_of_pop? popped]
    exact List.cons_ne_nil _ _

private theorem Stage.pop?_of_empty (empty : stage.move graph registry = .empty) :
    stage.queue.pop? = none := by
  unfold Stage.move at empty
  split at empty
  · assumption
  · split at empty
    · cases empty
    · split at empty <;> cases empty

/-- An exploration goes on by its moves: it asks for a cancellation before each of them but the
last one, then takes a step of its budget. -/
private theorem Stage.explore_eq (graph : FlowGraph) (registry : Variables)
    (cancelled : Nat → Bool) (budget : Nat) (stage : Stage) :
    stage.explore graph registry cancelled budget =
      match stage.move graph registry with
      | .empty => stage.conclude
      | move =>
        if cancelled (stage.progress.polls + 1) then stage.progress.poll.report .cancelled
        else
          match budget, move with
          | budget + 1, .turn next => next.explore graph registry cancelled budget
          | _, _ => stage.progress.poll.report .exhausted := by
  unfold Stage.explore Stage.move
  rw [Exploration.explore.eq_def]
  cases stage.queue.pop? with
  | none => rfl
  | some front =>
    obtain ⟨first, rest⟩ := front
    have sameRoom : stage.progress.poll.isSaturated first.place =
        stage.progress.isSaturated first.place := rfl
    have sameVisited : stage.progress.poll.visited = stage.progress.visited := rfl
    have counted : stage.progress.poll.polls = stage.progress.polls + 1 := rfl
    simp only [sameRoom, sameVisited, counted]
    cases cancelled (stage.progress.polls + 1) <;> cases budget <;>
      cases stage.progress.visited.contains first <;>
        cases stage.progress.isSaturated first.place <;> rfl

theorem Stage.explore_of_empty (empty : stage.move graph registry = .empty) :
    stage.explore graph registry cancelled budget = stage.conclude := by
  rw [explore_eq, empty]

theorem Stage.explore_of_cancelled (waits : stage.move graph registry ≠ .empty)
    (answer : cancelled (stage.progress.polls + 1) = true) :
    stage.explore graph registry cancelled budget = stage.progress.poll.report .cancelled := by
  rw [explore_eq]
  cases moves : stage.move graph registry with
  | empty => exact absurd moves waits
  | saturated => exact if_pos answer
  | turn next => exact if_pos answer

theorem Stage.explore_of_saturated (full : stage.move graph registry = .saturated)
    (answer : cancelled (stage.progress.polls + 1) = false) :
    stage.explore graph registry cancelled budget = stage.progress.poll.report .exhausted := by
  rw [explore_eq, full]
  cases budget <;> simp [answer]

theorem Stage.explore_zero (waits : stage.move graph registry ≠ .empty)
    (answer : cancelled (stage.progress.polls + 1) = false) :
    stage.explore graph registry cancelled 0 = stage.progress.poll.report .exhausted := by
  rw [explore_eq]
  cases moves : stage.move graph registry with
  | empty => exact absurd moves waits
  | saturated => simp [answer]
  | turn next => simp [answer]

theorem Stage.explore_succ (turns : stage.move graph registry = .turn next)
    (answer : cancelled (stage.progress.polls + 1) = false) :
    stage.explore graph registry cancelled (budget + 1) =
      next.explore graph registry cancelled budget := by
  rw [explore_eq, turns]
  simp [answer]

/-- How an exploration comes to its report: it stops where it stands, or it goes on with the next
turn and one step less. -/
inductive Run (graph : FlowGraph) (registry : Variables) (cancelled : Nat → Bool) :
    (budget : Nat) → Stage → Report → Prop where
  | empty {budget : Nat} {stage : Stage} (empty : stage.move graph registry = .empty) :
      Run graph registry cancelled budget stage stage.conclude
  | interrupted {budget : Nat} {stage : Stage} (waits : stage.move graph registry ≠ .empty)
      (answer : cancelled (stage.progress.polls + 1) = true) :
      Run graph registry cancelled budget stage (stage.progress.poll.report .cancelled)
  | exhausted {budget : Nat} {stage : Stage} (waits : stage.move graph registry ≠ .empty)
      (answer : cancelled (stage.progress.polls + 1) = false)
      (stopped : stage.move graph registry = .saturated ∨ budget = 0) :
      Run graph registry cancelled budget stage (stage.progress.poll.report .exhausted)
  | turn {budget : Nat} {stage next : Stage} {report : Report}
      (moves : stage.move graph registry = .turn next)
      (answer : cancelled (stage.progress.polls + 1) = false)
      (rest : Run graph registry cancelled budget next report) :
      Run graph registry cancelled (budget + 1) stage report

private theorem Stage.run_explore_of_goesOn
    (goesOn : stage.move graph registry ≠ .empty → cancelled (stage.progress.polls + 1) = false →
      Run graph registry cancelled budget stage (stage.explore graph registry cancelled budget)) :
    Run graph registry cancelled budget stage (stage.explore graph registry cancelled budget) := by
  by_cases empty : stage.move graph registry = .empty
  · rw [explore_of_empty empty]
    exact .empty empty
  cases answer : cancelled (stage.progress.polls + 1) with
  | true =>
    rw [explore_of_cancelled empty answer]
    exact .interrupted empty answer
  | false => exact goesOn empty answer

theorem Stage.run_explore (graph : FlowGraph) (registry : Variables) (cancelled : Nat → Bool)
    (budget : Nat) (stage : Stage) :
    Run graph registry cancelled budget stage (stage.explore graph registry cancelled budget) := by
  induction budget generalizing stage with
  | zero =>
    apply run_explore_of_goesOn
    intro waits answer
    rw [explore_zero waits answer]
    exact .exhausted waits answer (.inr rfl)
  | succ budget ih =>
    apply run_explore_of_goesOn
    intro waits answer
    cases moves : stage.move graph registry with
    | empty => exact absurd moves waits
    | saturated =>
      rw [explore_of_saturated moves answer]
      exact .exhausted waits answer (.inl moves)
    | turn next =>
      rw [explore_succ moves answer]
      exact .turn moves answer (ih next)

end Moves

variable {graph : FlowGraph} {registry : Variables}

/-- An exploration is a sequence of turns. -/
theorem Run.exists_turns {cancelled : Nat → Bool} {budget : Nat} {stage : Stage} {report : Report}
    (run : Run graph registry cancelled budget stage report) :
    ∃ last, Turns graph registry stage last ∧ Ends last report := by
  induction run with
  | empty empty => exact ⟨_, .refl, .emptied (Stage.pop?_of_empty empty)⟩
  | interrupted _ _ => exact ⟨_, .refl, .stopped (.inl rfl)⟩
  | exhausted _ _ _ => exact ⟨_, .refl, .stopped (.inr rfl)⟩
  | turn moves _ _ ih =>
    obtain ⟨last, turns, ends⟩ := ih
    exact ⟨last, .head (Stage.turn_of_move moves).1 turns, ends⟩

theorem exists_turns (graph : FlowGraph) (registry : Variables) (cancelled : Nat → Bool)
    (budget : Nat) (stage : Stage) :
    ∃ last, Turns graph registry stage last ∧
      Ends last (explore graph registry cancelled budget stage.queue stage.progress) :=
  (stage.run_explore graph registry cancelled budget).exists_turns

theorem Ends.executed_eq {last : Stage} {report : Report} (ends : Ends last report) :
    report.executed = last.executed.reverse := by
  cases ends <;> rfl

/-- An exploration that ends by itself has taken turns until nothing waited. -/
theorem Ends.of_isExhaustive {last : Stage} {report : Report} (ends : Ends last report)
    (exhaustive : report.IsExhaustive) :
    last.waiting = [] ∧ report = last.progress.report
      (if last.progress.completed then .completed else .infeasible) := by
  cases ends with
  | emptied empty => exact ⟨Queue.toList_of_pop?_eq_none empty, rfl⟩
  | stopped early =>
    rcases early with rfl | rfl <;> simp [Report.IsExhaustive, Progress.report] at exhaustive

/-- What every turn keeps, all turns keep. -/
theorem Turns.keep {stage last : Stage} (turns : Turns graph registry stage last)
    {kept : Stage → Prop} (initial : kept stage)
    (step : ∀ {before after}, Turn graph registry before after → kept before → kept after) :
    kept last := by
  induction turns with
  | refl => exact initial
  | tail _ turn ih => exact step turn ih

end Exploration

end PauseFlow
