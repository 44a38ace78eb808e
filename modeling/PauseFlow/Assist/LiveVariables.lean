import PauseFlow.Debuggee.Superclass
import PauseFlow.Snapshot.Basic

namespace PauseFlow

namespace Query

/-- A field of a live object; none if the object is gone. -/
def fieldOfLive (object : ObjectId) (name : String) : Query (Option LiveValue) :=
  tryCatch (readField object name) fun fault =>
    if fault.isCollected then pure none else throw fault

/-- The value of a variable, over at most `steps` qualifiers. -/
def liveValueWithin (frame : FrameRef) (registry : Variables) :
    (steps : Nat) → Var → Query (Option LiveValue)
  | 0, _ => pure none
  | steps + 1, var =>
    match registry.origin? var with
    | some (.localName name) => localValue frame name
    | some .this => do return (← thisObject frame).map .object
    | some (.field qualifier name) => do
      match ← liveValueWithin frame registry steps qualifier with
      | some (.object object) => fieldOfLive object.id name
      | _ => return none
    | _ => pure none

/-- The value that a variable of the source has in the frame. Derived fields are taken
from snapshots instead, and a qualifier is older than what hangs off it. -/
def liveValue (frame : FrameRef) (registry : Variables) (var : Var) : Query (Option LiveValue) :=
  liveValueWithin frame registry registry.size var

/-- Whether the assertions of the class that the frame executes in are off. A status that
cannot be determined counts as on. -/
def assertionsDisabled (frame : FrameRef) : Query LiveValue := do
  let location ← location frame
  let status ← assertionStatus location
  return .boolean (status = some false)

end Query

namespace Aliases

/-- The live value of a variable, the synthetic flag included. -/
def valueOf (frame : FrameRef) (registry : Variables) (var : Var) : Query (Option LiveValue) :=
  if registry.origin? var = some .assertionsDisabled then
    some <$> Query.assertionsDisabled frame
  else Query.liveValue frame registry var

/-- Group variables by live value, one after the other. -/
def resolveAll (frame : FrameRef) (registry : Variables) : Aliases → List Var → Query Aliases
  | aliases, [] => pure aliases
  | aliases, var :: rest => do
    match ← valueOf frame registry var with
    | none => resolveAll frame registry aliases rest
    | some .void => resolveAll frame registry aliases rest
    | some value => resolveAll frame registry (aliases.add value var) rest

/-- Group every variable that has a live value in the frame by that value. -/
def resolve (frame : FrameRef) (registry : Variables) : Query Aliases :=
  resolveAll frame registry .empty registry.all

end Aliases

end PauseFlow
