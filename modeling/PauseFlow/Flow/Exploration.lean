import PauseFlow.Data.Queue
import PauseFlow.Flow.Visited

/-! Breadth-first exploration of a flow graph. A configuration is executed once; a block
is executed from at most `memoriesPerBlock` different memories, so exploration ends
whatever the step budget is. -/
namespace PauseFlow

/-- How an exploration ended. -/
inductive Outcome where
  /-- Every path was explored. -/
  | completed
  /-- The budget of steps or of memories ran out. -/
  | exhausted
  | cancelled
  /-- No path is feasible. -/
  | infeasible
deriving DecidableEq

structure Report where
  outcome : Outcome
  /-- How often cancellation was asked for. -/
  polls : Nat
  /-- The configurations executed, in order. -/
  executed : List Configuration
  /-- What the executions reported, in order. -/
  events : List Event
deriving DecidableEq

namespace Exploration

def defaultBudget : Nat := 10000

/-- Bound on the memories from which one block is executed. -/
def memoriesPerBlock : Nat := 64

/-- What an exploration has done so far. -/
structure Progress where
  polls : Nat
  /-- Whether a path reached an end. -/
  completed : Bool
  visited : Visited
  /-- What the executions reported, the latest first. -/
  events : List Event

namespace Progress

def start : Progress := ⟨0, false, .empty, []⟩

/-- Ask once more for a cancellation. -/
def poll (progress : Progress) : Progress := { progress with polls := progress.polls + 1 }

/-- Take note of an executed configuration. -/
def record (progress : Progress) (configuration : Configuration) (visit : Visit) : Progress :=
  { progress with
    completed := progress.completed || visit.finished
    visited := progress.visited.add configuration
    events := visit.events.reverse ++ progress.events }

/-- Whether a block was already executed from as many memories as allowed. -/
def isSaturated (progress : Progress) (place : BlockId) : Bool :=
  memoriesPerBlock ≤ (progress.visited.memoriesAt place).length

/-- The report of an exploration that ends here. -/
def report (progress : Progress) (outcome : Outcome) : Report :=
  ⟨outcome, progress.polls, progress.visited.configurations.reverse, progress.events.reverse⟩

end Progress

/-- Explore the queue. `cancelled poll` tells whether the poll of that number, counted
from one, is answered by a cancellation. Meeting an executed configuration again counts
as reaching an end. -/
def explore (graph : FlowGraph) (registry : Variables) (cancelled : Nat → Bool)
    (budget : Nat) (queue : Queue Configuration) (progress : Progress) : Report :=
  match queue.pop? with
  | none => progress.report (if progress.completed then .completed else .infeasible)
  | some (configuration, queue) =>
    let progress := progress.poll
    if cancelled progress.polls then progress.report .cancelled
    else
      match budget with
      | 0 => progress.report .exhausted
      | budget + 1 =>
        if progress.visited.contains configuration then
          explore graph registry cancelled budget queue { progress with completed := true }
        else if progress.isSaturated configuration.place then progress.report .exhausted
        else
          let visit := configuration.visit graph registry
          explore graph registry cancelled budget (queue.append visit.successors)
            (progress.record configuration visit)

end Exploration

/-- Explore a flow from the beginning of a block, given what is known there. -/
def FlowGraph.explore (graph : FlowGraph) (registry : Variables) (start : BlockId)
    (memory : Memory) (budget : Nat) (cancelled : Nat → Bool) : Report :=
  Exploration.explore graph registry cancelled budget (.ofList [⟨start, memory⟩]) .start

end PauseFlow
