import PauseFlow.Debuggee.Session

namespace PauseFlow

inductive AssistFailure where
  | remote (fault : Fault)
  /-- The debuggee is paused in something that is no class. -/
  | invalidLocation (signature : String)
  | readAccessHeld
  | cancelled
deriving DecidableEq

namespace AssistFailure

def message : AssistFailure → String
  | remote fault => "jdwp: " ++ fault.message
  | invalidLocation signature =>
    "malformed execution location: declaring type signature `" ++ signature ++ "` is not a class"
  | readAccessHeld => "live values must not be fetched while holding analysis read access"
  | cancelled => "data-flow assist was cancelled"

/-- Whether the failure came from the debuggee. -/
def isRemote : AssistFailure → Bool
  | remote _ => true
  | invalidLocation _ => true
  | _ => false

end AssistFailure

/-- Steps that fail as the assist does. -/
abbrev Assist (Answer : Type) := PauseM AssistFailure Answer

instance : MonadLift Query Assist where
  monadLift query := ExceptT.mk do
    match ← query.run with
    | .ok answer => pure (.ok answer)
    | .error fault => pure (.error (.remote fault))

namespace Assist

/-- Hold read access during some steps, whether they succeed or fail. -/
def withReadAccess {Failure Answer : Type} (steps : PauseM Failure Answer) :
    PauseM Failure Answer :=
  ExceptT.mk fun session =>
    let (answer, after) := steps.run session.acquireRead
    (answer, after.releaseRead)

/-- Refuse to go on while read access is held. -/
def refuseReadAccess : Assist Unit := do
  if (← get).isReadAccessHeld then throw .readAccessHeld

end Assist

end PauseFlow
