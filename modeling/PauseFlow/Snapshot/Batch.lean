import PauseFlow.Assist.Failure
import PauseFlow.Snapshot.Classify

namespace PauseFlow.Snapshots

/-- Snapshot values one after the other. A collected object and a value without snapshot
are left out; any other failure, and a cancellation, ends the batch. -/
def takeAll : (filter : LoaderFilter) → List LiveValue → Assist (List (LiveValue × Snapshot))
  | _, [] => pure []
  | filter, value :: rest => do
    if (← get).cancelled then throw .cancelled
    let (answer, filter) ← liftM ((Snapshot.classify value).run.run filter)
    match answer with
    | .ok (some snapshot) =>
      let later ← takeAll filter rest
      return (value, snapshot) :: later
    | .ok none => takeAll filter rest
    | .error fault => if fault.isCollected then takeAll filter rest else throw (.remote fault)

/-- Snapshot every live value of the alias groups, as the frame sees it. -/
def fetch (frame : FrameRef) (aliases : Aliases) : Assist Snapshots := do
  let loader ← liftM (Query.frameLoader frame)
  return ⟨← takeAll (.ofLoader loader) aliases.values⟩

end PauseFlow.Snapshots
