import PauseFlow.Debuggee.Superclass

/-! Which class loaders the paused frame can see: the bootstrap loader, its own loader,
and the ancestors of that. The ancestors are read when they are first needed, and once
they were read they are not read again. -/
namespace PauseFlow

structure LoaderFilter where
  frameLoader : Option ObjectId
  /-- The frame's loader and its ancestors, once they were read. -/
  chain : Option (List ObjectId)
deriving DecidableEq

def LoaderFilter.ofLoader (frameLoader : Option ObjectId) : LoaderFilter := ⟨frameLoader, none⟩

/-- Queries that share a loader filter. What it has learnt outlives a failure. -/
abbrev FilteredQuery (Answer : Type) := ExceptT Fault (StateT LoaderFilter (StateM Session)) Answer

instance : MonadLift Query FilteredQuery where
  monadLift query := ExceptT.mk (StateT.lift query.run)

namespace LoaderFilter

/-- Follow the parent field from loader to loader until it leads nowhere new. -/
def followParents (parentField : FieldId) :
    (steps : Nat) → (chain : List ObjectId) → (current : ObjectId) → Query (List ObjectId)
  | 0, chain, _ => pure chain
  | steps + 1, chain, current => do
    match ← Query.fieldValue current parentField with
    | .object parent =>
      if parent.id ∈ chain then pure chain
      else followParents parentField steps (chain ++ [parent.id]) parent.id
    | _ => pure chain

/-- A loader and its ancestors. Nothing is known above an object that is no class loader.
An object is visited once, so there are at most as many steps as objects. -/
def readChain (loader : Option ObjectId) : Query (List ObjectId) := do
  let some loader := loader | return []
  let type ← Query.objectType loader
  let some root ← Query.findSupertype type Query.classLoaderName | return []
  let some parentField ← Query.fieldByName root.id "parent" | return []
  let session ← get
  followParents parentField (session.heap.instances.length + 1) [loader] loader

/-- Whether the frame can see the types of a loader. -/
def accepts (loader : Option ObjectId) : FilteredQuery Bool := do
  let some loader := loader | return true
  let filter ← getThe LoaderFilter
  if filter.frameLoader = some loader then return true
  match filter.chain with
  | some chain => return loader ∈ chain
  | none =>
    let chain ← liftM (readChain filter.frameLoader)
    set { filter with chain := some chain }
    return loader ∈ chain

end LoaderFilter

end PauseFlow
