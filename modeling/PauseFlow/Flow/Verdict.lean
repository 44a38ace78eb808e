import PauseFlow.Data.OrderedMap
import PauseFlow.Flow.Execution

/-! Conditions that can go only one way. Reports about a condition are merged over all
paths that met it, so their order and repetition do not matter. -/
namespace PauseFlow

/-- What all paths together say about a condition. -/
inductive Verdict where
  | alwaysTrue
  | alwaysFalse
  /-- Both sides were taken. -/
  | unknown
  /-- The condition was met, but neither side can be taken. -/
  | unreachable
deriving DecidableEq

/-- Which sides of a condition were taken on some path. -/
structure Sides where
  thenTaken : Bool
  elseTaken : Bool
deriving DecidableEq

namespace Sides

def merge (left right : Sides) : Sides :=
  ⟨left.thenTaken || right.thenTaken, left.elseTaken || right.elseTaken⟩

def verdict : Sides → Verdict
  | ⟨true, false⟩ => .alwaysTrue
  | ⟨false, true⟩ => .alwaysFalse
  | ⟨true, true⟩ => .unknown
  | ⟨false, false⟩ => .unreachable

end Sides

/-- What the editor shows at a condition. -/
inductive HintKind where
  | alwaysTrue
  | alwaysFalse
deriving DecidableEq

def HintKind.text : HintKind → String
  | alwaysTrue => "is always true"
  | alwaysFalse => "is always false"

/-- Only a condition that goes one way is worth a hint. -/
def Verdict.hint? : Verdict → Option HintKind
  | alwaysTrue => some .alwaysTrue
  | alwaysFalse => some .alwaysFalse
  | unknown => none
  | unreachable => none

/-- The sides taken at every condition that was met. -/
structure Verdicts where
  sides : OrderedMap Anchor Sides
deriving DecidableEq

namespace Verdicts

def empty : Verdicts := ⟨.empty⟩

/-- Merge one report about a condition. -/
def report (verdicts : Verdicts) (anchor : Anchor) (taken : Sides) : Verdicts :=
  ⟨verdicts.sides.insert anchor (((verdicts.sides.get? anchor).getD ⟨false, false⟩).merge taken)⟩

/-- Merge what an execution reports; assignments say nothing about conditions. -/
def observe (verdicts : Verdicts) : Event → Verdicts
  | .decided anchor thenFeasible elseFeasible =>
    verdicts.report anchor ⟨thenFeasible, elseFeasible⟩
  | .assigned _ _ => verdicts

def ofEvents (events : List Event) : Verdicts := events.foldl observe empty

/-- The verdict on a condition; none if no path met it. -/
def verdict? (verdicts : Verdicts) (anchor : Anchor) : Option Verdict :=
  (verdicts.sides.get? anchor).map (·.verdict)

/-- The hints, in ascending order of anchors. -/
def hints (verdicts : Verdicts) : List (Anchor × HintKind) :=
  verdicts.sides.entries.filterMap fun (anchor, sides) =>
    sides.verdict.hint?.map fun kind => (anchor, kind)

end Verdicts

end PauseFlow
