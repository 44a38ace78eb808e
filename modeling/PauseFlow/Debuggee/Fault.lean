import PauseFlow.Debuggee.LiveValue

namespace PauseFlow

/-- A stack frame of a suspended thread. -/
structure FrameRef where
  thread : Nat
  frame : Nat
deriving DecidableEq

inductive Fault where
  | notConnected
  | commandFailed (code : Nat)
  | unknownObject (id : ObjectId)
  | unknownFrame (frame : FrameRef)
  | unknownType (id : TypeId)
  | notAString (id : ObjectId)
  | notAnArray (id : ObjectId)
  /-- A failure reported in words. -/
  | described (text : String)
deriving DecidableEq

namespace Fault

/-- Error code of a command on an object that was garbage collected. -/
def collectedCode : Nat := 20

/-- Whether only one object is gone, not the connection as a whole. -/
def isCollected : Fault → Bool
  | unknownObject _ => true
  | commandFailed code => code = collectedCode
  | _ => false

def message : Fault → String
  | notConnected => "JDWP client is not connected"
  | commandFailed code => s!"JDWP command failed with error code {code}"
  | unknownObject id => s!"invalid object id {id}"
  | unknownFrame frame =>
    s!"invalid frame FrameRef \x7b thread: {frame.thread}, frame: {frame.frame} \x7d"
  | unknownType id => s!"unknown reference type {id}"
  | notAString id => s!"object {id} is not a string"
  | notAnArray id => s!"object {id} is not an array"
  | described text => text

end Fault

end PauseFlow
