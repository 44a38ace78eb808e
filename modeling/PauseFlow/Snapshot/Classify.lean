import PauseFlow.Snapshot.Basic
import PauseFlow.Snapshot.LoaderFilter

namespace PauseFlow.Snapshot

/-- Collections that keep their element count in an `int` field named `size`. -/
def sizedCollections : List String := ["java.util.ArrayList", "java.util.LinkedList"]

/-- The enumeration that an object of a type is a case of. A case with a body is an
instance of an anonymous class right below its enumeration. -/
def declaringEnum? (info : TypeInfo) : Query (Option TypeInfo) := do
  if info.isEnum then return some info
  let some superclass := info.superclass | return none
  let parent ← Query.typeInfo superclass
  return if parent.isEnum then some parent else none

/-- A case of an enumeration, by the name it keeps; without one it is a plain object. -/
def ofEnumCase (id : ObjectId) (enumeration : TypeInfo) : Query Snapshot := do
  match ← Query.readField id "name" with
  | some (.object name) => return .enumCase enumeration.signature (← Query.stringText name.id)
  | _ => return .object enumeration.signature

/-- A box with the primitive in it, if that is of the kind the class boxes. -/
def ofBox (id : ObjectId) (signature : String) (kind : PrimitiveKind) : Query Snapshot := do
  let content := (← Query.readField id "value").bind LiveValue.constant?
  match content with
  | some (.primitive actual value) =>
    if actual = kind then
      return .withField signature .unboxed (.constant (.primitive actual value))
    else return .object signature
  | _ => return .object signature

/-- A collection with its size, if that is an `int`. -/
def ofCollection (id : ObjectId) (signature : String) : Query Snapshot := do
  match ← Query.readField id "size" with
  | some (.int size) =>
    return .withField signature .collectionSize (.constant (.int size.toInt))
  | _ => return .object signature

/-- A visible object that is neither a string nor an array. -/
def ofPlainObject (id : ObjectId) (info : TypeInfo) : Query Snapshot := do
  match ← declaringEnum? info with
  | some enumeration => ofEnumCase id enumeration
  | none =>
    match PrimitiveKind.ofBoxName? info.typeName with
    | some kind => ofBox id info.signature kind
    | none =>
      if info.typeName ∈ sizedCollections then ofCollection id info.signature
      else return .object info.signature

/-- An object whose type the frame can see. -/
def ofVisibleObject (id : ObjectId) (info : TypeInfo) : Query Snapshot := do
  if info.signature = Signature.string then return .string (← Query.stringText id)
  else if info.signature.toList.head? = some '[' then
    let length ← Query.arrayLength id
    return .withField info.signature .arrayLength (.constant (.int length.toInt))
  else ofPlainObject id info

def ofObject (id : ObjectId) : FilteredQuery (Option Snapshot) := do
  let info ← liftM (Query.objectType id >>= Query.typeInfo)
  if ← LoaderFilter.accepts info.loader then return some (← liftM (ofVisibleObject id info))
  else return none

/-- The snapshot of a live value; none if there is no value, or its type belongs to a
loader that the frame cannot see. -/
def classify : LiveValue → FilteredQuery (Option Snapshot)
  | .null => pure (some (.constant .null))
  | .object ref => ofObject ref.id
  | value => pure (value.constant?.map .constant)

end PauseFlow.Snapshot
