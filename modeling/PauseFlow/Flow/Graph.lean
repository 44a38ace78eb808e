import PauseFlow.Memory.Condition

namespace PauseFlow

structure BlockId where
  index : Nat
deriving DecidableEq

/-- A source construct, as the host numbers it. Results are reported by anchor. -/
structure Anchor where
  number : Nat
deriving DecidableEq

/-- Anchors are ordered by number. -/
instance : KeyOrder Anchor where
  before left right := KeyOrder.before left.number right.number
  irreflexive anchor := KeyOrder.irreflexive anchor.number
  transitive := KeyOrder.transitive
  connected notLeft notRight := congrArg Anchor.mk (KeyOrder.connected notLeft notRight)

inductive Instruction where
  | assign (target : Var) (value : Operand)
  /-- The target receives an unknown value. -/
  | havoc (target : Var)
  /-- Paths on which the condition is false end here. -/
  | assume (condition : Condition)
deriving DecidableEq

/-- How a block ends. -/
inductive Terminator where
  | goto (target : BlockId)
  | branch (condition : Condition) (thenTarget elseTarget : BlockId) (anchor : Option Anchor)
  | returns
  | exits
deriving DecidableEq

structure Block where
  instructions : List Instruction
  terminator : Terminator
deriving DecidableEq

/-- Blocks, the block where execution begins, and the blocks where source constructs
begin. Of several bindings of an anchor the first in the list counts. -/
structure FlowGraph where
  entry : BlockId
  blocks : List Block
  anchors : List (Anchor × BlockId)
deriving DecidableEq

namespace FlowGraph

/-- The block of an identity; one outside the graph is empty and exits. -/
def block (graph : FlowGraph) (id : BlockId) : Block :=
  graph.blocks[id.index]?.getD ⟨[], .exits⟩

/-- Let a construct begin at a block, whatever was said of it before. -/
def bindAnchor (graph : FlowGraph) (anchor : Anchor) (id : BlockId) : FlowGraph :=
  { graph with anchors := (anchor, id) :: graph.anchors }

/-- The block where a construct begins, if it is part of the flow. -/
def start? (graph : FlowGraph) (anchor : Anchor) : Option BlockId :=
  (graph.anchors.find? fun binding => binding.1 = anchor).map (·.2)

end FlowGraph

end PauseFlow
