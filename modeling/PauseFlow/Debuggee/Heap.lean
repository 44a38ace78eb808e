import PauseFlow.Debuggee.Fault
import PauseFlow.Hierarchy.Signature

/-! The content of a suspended process: loaded types, objects, frames and assertion
switches. Types, fields and objects draw their numbers from one counter, so no number
means two things. -/
namespace PauseFlow

/-- Execution location of a frame. -/
structure Location where
  /-- Signature of the declaring type. -/
  signature : String
  method : String
  line : Nat
  codeIndex : Nat
deriving DecidableEq

/-- What the debuggee says of a loaded type. A type without a loader was loaded by the
bootstrap loader. -/
structure TypeInfo where
  id : TypeId
  signature : String
  loader : Option ObjectId
  superclass : Option TypeId
  isEnum : Bool
deriving DecidableEq

def TypeInfo.typeName (info : TypeInfo) : String := Signature.typeName info.signature

/-- A loaded type with the fields it declares itself, in order of declaration. -/
structure LoadedType where
  info : TypeInfo
  fields : List (FieldId × String)
deriving DecidableEq

/-- An object: the fields set so far, the latest write first, and the text or length of
a string or an array. -/
structure Instance where
  id : ObjectId
  typeId : TypeId
  fields : List (FieldId × LiveValue)
  text : Option String
  length : Option Int32
deriving DecidableEq

/-- The value of a field; one that was never written is `null`. -/
def Instance.value (object : Instance) (field : FieldId) : LiveValue :=
  (object.fields.lookup field).getD .null

/-- The object after a field was written. -/
def Instance.write (object : Instance) (field : FieldId) (value : LiveValue) : Instance :=
  { object with fields := (field, value) :: object.fields }

/-- How a search for a field at or above a type comes out. -/
inductive FieldSearch where
  | declared (field : FieldId)
  | undeclared
  /-- The links lead round, and the search never comes out. -/
  | endless
deriving DecidableEq

/-- A stack frame; of several locals with one name the first in the list counts. -/
structure Frame where
  location : Location
  loader : Option ObjectId
  this : Option ObjectRef
  locals : List (String × LiveValue)
deriving DecidableEq

structure Heap where
  /-- The last number handed out. -/
  lastId : Nat
  /-- Loaded types, the latest first. -/
  types : List LoadedType
  instances : List Instance
  frames : List (FrameRef × Frame)
  assertions : List (String × Option Bool)
deriving DecidableEq

namespace Heap

def enumSignature : String := "Ljava/lang/Enum;"

def classLoaderSignature : String := "Ljava/lang/ClassLoader;"

def appClassLoaderSignature : String := "Ljdk/internal/loader/ClassLoaders$AppClassLoader;"

def empty : Heap := ⟨0, [], [], [], []⟩

def type? (heap : Heap) (id : TypeId) : Option LoadedType :=
  heap.types.find? fun type => type.info.id = id

def instance? (heap : Heap) (id : ObjectId) : Option Instance :=
  heap.instances.find? fun object => object.id = id

def frame? (heap : Heap) (frame : FrameRef) : Option Frame :=
  (heap.frames.find? fun entry => entry.1 = frame).map (·.2)

/-- The field of that name declared by the type itself. -/
def declaredField? (heap : Heap) (id : TypeId) (name : String) : Option FieldId :=
  (heap.type? id).bind fun type => (type.fields.find? fun field => field.2 = name).map (·.1)

def superclass? (heap : Heap) (id : TypeId) : Option TypeId :=
  (heap.type? id).bind (·.info.superclass)

/-- Look for a field of that name from a type upward, at a number of types. -/
def seekField (heap : Heap) (name : String) : (steps : Nat) → TypeId → FieldSearch
  | 0, _ => .endless
  | steps + 1, id =>
    match heap.declaredField? id name with
    | some field => .declared field
    | none =>
      match heap.superclass? id with
      | none => .undeclared
      | some parent => heap.seekField name steps parent

/-- The field of that name declared nearest at or above a type. Links are followed without looking
back: a search that is not over after as many types as there are has come to one of them again. -/
def inheritedField (heap : Heap) (name : String) (id : TypeId) : FieldSearch :=
  heap.seekField name (heap.types.length + 1) id

/-- The latest type with a signature. -/
def typeOfSignature? (heap : Heap) (signature : String) : Option TypeId :=
  (heap.types.find? fun type => type.info.signature = signature).map (·.info.id)

/-- Load a type. -/
def load (heap : Heap) (signature : String) (superclass : Option TypeId)
    (loader : Option ObjectId) (isEnum : Bool) : Heap × TypeId :=
  let id := heap.lastId + 1
  ({ heap with
      lastId := id
      types := ⟨⟨id, signature, loader, superclass, isEnum⟩, []⟩ :: heap.types }, id)

/-- The type with a signature, loaded by the bootstrap loader on first use. -/
def ensureType (heap : Heap) (signature : String) (superclass : Option TypeId) : Heap × TypeId :=
  match heap.typeOfSignature? signature with
  | some id => (heap, id)
  | none => heap.load signature superclass none false

/-- Declare a field. A number is handed out also when there is no such type. -/
def addField (heap : Heap) (id : TypeId) (name : String) : Heap × FieldId :=
  let field := heap.lastId + 1
  ({ heap with
      lastId := field
      types := heap.types.map fun type =>
        if type.info.id = id then { type with fields := type.fields ++ [(field, name)] }
        else type }, field)

/-- Declare a field unless the type has one of that name. -/
def ensureField (heap : Heap) (id : TypeId) (name : String) : Heap :=
  if (heap.declaredField? id name).isSome then heap else (heap.addField id name).1

/-- Load an enumeration; the enum base declares where the names of its cases are kept. -/
def loadEnum (heap : Heap) (signature : String) (loader : Option ObjectId) : Heap × TypeId :=
  let (heap, base) := heap.ensureType enumSignature none
  (heap.ensureField base "name").load signature (some base) loader true

/-- Create an object. -/
def allocate (heap : Heap) (typeId : TypeId) (text : Option String) (length : Option Int32) :
    Heap × ObjectRef :=
  let id := heap.lastId + 1
  ({ heap with lastId := id, instances := ⟨id, typeId, [], text, length⟩ :: heap.instances },
    ⟨id, (heap.type? typeId).elim "" fun type => type.info.typeName⟩)

def newObject (heap : Heap) (typeId : TypeId) : Heap × ObjectRef := heap.allocate typeId none none

def newString (heap : Heap) (text : String) : Heap × ObjectRef :=
  let (heap, typeId) := heap.ensureType Signature.string none
  heap.allocate typeId (some text) none

def newArray (heap : Heap) (signature : String) (length : Int32) : Heap × ObjectRef :=
  let (heap, typeId) := heap.ensureType signature none
  heap.allocate typeId none (some length)

/-- Write a declared field of an object. -/
def store (heap : Heap) (id : ObjectId) (field : FieldId) (value : LiveValue) : Heap :=
  { heap with instances := heap.instances.map fun object =>
      if object.id = id then object.write field value else object }

/-- Write a field of a live object. A name that no type of the object declares is
declared by its runtime type first. None if the search for the name never comes out. -/
def setField (heap : Heap) (id : ObjectId) (name : String) (value : LiveValue) : Option Heap :=
  match heap.instance? id with
  | none => some heap
  | some object =>
    match heap.inheritedField name object.typeId with
    | .declared field => some (heap.store id field value)
    | .undeclared =>
      let (heap, field) := heap.addField object.typeId name
      some (heap.store id field value)
    | .endless => none

/-- Create an enum case, which keeps its name as a string object. -/
def newEnumConstant (heap : Heap) (typeId : TypeId) (name : String) : Option (Heap × ObjectRef) :=
  let (heap, object) := heap.newObject typeId
  let (heap, text) := heap.newString name
  (heap.setField object.id "name" (.object text)).map fun heap => (heap, object)

/-- Create an application class loader below `parent`. -/
def newClassLoader (heap : Heap) (parent : Option ObjectRef) : Option (Heap × ObjectRef) :=
  let (heap, base) := heap.ensureType classLoaderSignature none
  let (heap, app) := (heap.ensureField base "parent").ensureType appClassLoaderSignature (some base)
  let (heap, loader) := heap.newObject app
  (heap.setField loader.id "parent" (parent.elim .null .object)).map fun heap => (heap, loader)

/-- Garbage-collect an object. -/
def collect (heap : Heap) (id : ObjectId) : Heap :=
  { heap with instances := heap.instances.filter fun object => object.id ≠ id }

def setFrame (heap : Heap) (frame : FrameRef) (content : Frame) : Heap :=
  { heap with frames := (frame, content) :: heap.frames.filter fun entry => entry.1 ≠ frame }

/-- Write a local of a frame; nothing happens if there is no such frame. -/
def setLocal (heap : Heap) (frame : FrameRef) (name : String) (value : LiveValue) : Heap :=
  { heap with frames := heap.frames.map fun entry =>
      if entry.1 = frame then
        (entry.1, { entry.2 with locals := (name, value) :: entry.2.locals })
      else entry }

/-- Say whether assertions are on in a class, or that it cannot be determined. -/
def setAssertions (heap : Heap) (signature : String) (status : Option Bool) : Heap :=
  { heap with assertions := (signature, status) :: heap.assertions }

end Heap

end PauseFlow
