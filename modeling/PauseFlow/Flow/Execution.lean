import PauseFlow.Flow.Graph
import PauseFlow.Memory.Forgetting

namespace PauseFlow

/-- What an execution reports. -/
inductive Event where
  /-- A condition was met, and which of its sides can be taken. -/
  | decided (anchor : Anchor) (thenFeasible elseFeasible : Bool)
  /-- A variable was assigned and is known to hold the value. -/
  | assigned (target : Var) (value : AbstractValue)
deriving DecidableEq

/-- A place in the graph together with what is known there. -/
structure Configuration where
  place : BlockId
  memory : Memory
deriving DecidableEq

namespace Instruction

/-- Assign: forget the target, then let it share the class of the source or hold the
constant. Assigning a variable to itself changes nothing. -/
def runAssign (registry : Variables) (memory : Memory) (target : Var) (value : Operand) :
    Option (List Event × Memory) :=
  if value = .var target then some ([], memory)
  else
    let forgotten := memory.forget registry target
    let (feasible, assigned) :=
      match value with
      | .var source => forgotten.unite registry target source
      | .constant value => forgotten.narrow registry target value
    if feasible then some ([.assigned target (assigned.value registry target)], assigned) else none

/-- Run one instruction; none if no path goes on. -/
def run (registry : Variables) (memory : Memory) : Instruction → Option (List Event × Memory)
  | assign target value => runAssign registry memory target value
  | havoc target => some ([], memory.forget registry target)
  | assume condition =>
    let (feasible, narrowed) := memory.assume registry condition
    if feasible then some ([], narrowed) else none

/-- Run instructions until one of them ends the path. Events reported before that stand. -/
def runAll (registry : Variables) : List Instruction → Memory → List Event × Option Memory
  | [], memory => ([], some memory)
  | instruction :: rest, memory =>
    match instruction.run registry memory with
    | none => ([], none)
    | some (events, next) =>
      let (later, final) := runAll registry rest next
      (events ++ later, final)

end Instruction

/-- What executing a configuration once gives. -/
structure Visit where
  events : List Event
  /-- Whether the path reached the end of the code block. -/
  finished : Bool
  successors : List Configuration
deriving DecidableEq

/-- Both sides of a branch are tried on the same memory; a side that contradicts it is
not taken. -/
def Visit.ofBranch (registry : Variables) (memory : Memory) (condition : Condition)
    (thenTarget elseTarget : BlockId) (anchor : Option Anchor) : Visit :=
  let (thenFeasible, thenMemory) := memory.assume registry condition
  let (elseFeasible, elseMemory) := memory.assume registry condition.negate
  { events := anchor.toList.map fun anchor => .decided anchor thenFeasible elseFeasible
    finished := false
    successors :=
      (if thenFeasible then [⟨thenTarget, thenMemory⟩] else []) ++
      (if elseFeasible then [⟨elseTarget, elseMemory⟩] else []) }

def Visit.ofTerminator (registry : Variables) (memory : Memory) : Terminator → Visit
  | .goto target => ⟨[], false, [⟨target, memory⟩]⟩
  | .branch condition thenTarget elseTarget anchor =>
    ofBranch registry memory condition thenTarget elseTarget anchor
  | .returns => ⟨[], true, []⟩
  | .exits => ⟨[], true, []⟩

/-- Execute the block of a configuration from its memory. -/
def Configuration.visit (graph : FlowGraph) (registry : Variables)
    (configuration : Configuration) : Visit :=
  let block := graph.block configuration.place
  match Instruction.runAll registry block.instructions configuration.memory with
  | (events, none) => ⟨events, false, []⟩
  | (events, some memory) =>
    let last := Visit.ofTerminator registry memory block.terminator
    { last with events := events ++ last.events }

end PauseFlow
