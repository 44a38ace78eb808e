import PauseFlow.Debuggee.Session

namespace PauseFlow.Query

def classLoaderName : String := "java.lang.ClassLoader"

/-- Enough steps to visit every loaded type and to see that the walk is over. -/
def walkSteps : Query Nat := do
  let session ← get
  pure (session.heap.types.length + 1)

def findSupertypeWithin (name : String) :
    (steps : Nat) → (visited : List TypeId) → Option TypeId → Query (Option TypeInfo)
  | 0, _, _ => pure none
  | _ + 1, _, none => pure none
  | steps + 1, visited, some id =>
    if id ∈ visited then pure none
    else do
      let info ← typeInfo id
      if info.typeName = name then pure (some info)
      else findSupertypeWithin name steps (id :: visited) info.superclass

/-- The first type of that name on the walk from a type upward, the type included. -/
def findSupertype (id : TypeId) (name : String) : Query (Option TypeInfo) := do
  findSupertypeWithin name (← walkSteps) [] (some id)

def readFieldWithin (object : ObjectId) (name : String) :
    (steps : Nat) → (visited : List TypeId) → Option TypeId → Query (Option LiveValue)
  | 0, _, _ => pure none
  | _ + 1, _, none => pure none
  | steps + 1, visited, some id =>
    if id ∈ visited then pure none
    else do
      match ← fieldByName id name with
      | some field => some <$> fieldValue object field
      | none =>
        let info ← typeInfo id
        readFieldWithin object name steps (id :: visited) info.superclass

/-- The value of the field of that name declared nearest above the runtime type of an
object; none if no type of the object declares it. -/
def readField (object : ObjectId) (name : String) : Query (Option LiveValue) := do
  let id ← objectType object
  readFieldWithin object name (← walkSteps) [] (some id)

end PauseFlow.Query
