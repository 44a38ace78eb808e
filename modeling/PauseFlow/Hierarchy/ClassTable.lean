import PauseFlow.Hierarchy.Primitive

/-! The classes visible to an analysis. A table only grows: adding a class under a
known name replaces its definition and keeps its identity. -/
namespace PauseFlow

/-- Position of a class in its table. -/
structure ClassId where
  index : Nat
deriving DecidableEq

/-- A runtime type: a primitive, a class of the table, or an array. -/
inductive JvmType where
  | primitive (kind : PrimitiveKind)
  | ofClass (id : ClassId)
  | arrayOf (element : JvmType)
deriving DecidableEq

namespace JvmType

/-- Classes and arrays; their values are `null` or objects. -/
def isReference : JvmType → Bool
  | primitive _ => false
  | ofClass _ => true
  | arrayOf _ => true

/-- The type wrapped in `depth` array layers. -/
def arrayOfDepth (type : JvmType) : (depth : Nat) → JvmType
  | 0 => type
  | depth + 1 => arrayOf (type.arrayOfDepth depth)

end JvmType

inductive ClassKind where
  | plain
  | interface
  | enumeration
deriving DecidableEq

/-- One class definition. Names are binary names with dots (`java.util.Map$Entry`). -/
structure ClassInfo where
  name : String
  kind : ClassKind
  superclass : Option ClassId
  interfaces : List ClassId
  isFinal : Bool
  constants : List String
deriving DecidableEq

namespace ClassInfo

/-- A class without declared supertypes. -/
def plain (name : String) : ClassInfo := ⟨name, .plain, none, [], false, []⟩

def interface (name : String) : ClassInfo := { plain name with kind := .interface }

/-- Enumerations are final and list their cases. -/
def enumeration (name : String) (constants : List String) : ClassInfo :=
  { plain name with kind := .enumeration, isFinal := true, constants := constants }

def isInterface (info : ClassInfo) : Bool := info.kind = .interface

def isEnum (info : ClassInfo) : Bool := info.kind = .enumeration

/-- Declared supertypes: the superclass first, then the interfaces. -/
def supertypes (info : ClassInfo) : List ClassId := info.superclass.toList ++ info.interfaces

end ClassInfo

/-- Classes in order of first definition. -/
structure ClassTable where
  classes : List ClassInfo
deriving DecidableEq

namespace ClassTable

def objectName : String := "java.lang.Object"

def stringName : String := "java.lang.String"

def enumName : String := "java.lang.Enum"

def empty : ClassTable := ⟨[]⟩

def size (table : ClassTable) : Nat := table.classes.length

/-- The class known under a name. -/
def lookup (table : ClassTable) (name : String) : Option ClassId :=
  (table.classes.findIdx? fun info => info.name = name).map .mk

def get? (table : ClassTable) (id : ClassId) : Option ClassInfo := table.classes[id.index]?

/-- The name of a class; an identity outside the table has the empty name. -/
def nameOf (table : ClassTable) (id : ClassId) : String := (table.get? id).elim "" (·.name)

def supertypes (table : ClassTable) (id : ClassId) : List ClassId :=
  (table.get? id).elim [] (·.supertypes)

def isObject (table : ClassTable) (id : ClassId) : Bool := table.nameOf id = objectName

/-- A class that names no superclass extends the enum base if it is an enumeration and
the root class otherwise, when the table knows them. Interfaces and the root extend nothing. -/
def withImplicitSuperclass (table : ClassTable) (info : ClassInfo) : ClassInfo :=
  if info.superclass.isNone && !info.isInterface && info.name ≠ objectName then
    { info with superclass := table.lookup (if info.isEnum then enumName else objectName) }
  else info

/-- Add a class, or replace the definition known under its name. -/
def add (table : ClassTable) (declared : ClassInfo) : ClassTable × ClassId :=
  let info := table.withImplicitSuperclass declared
  match table.lookup info.name with
  | some id => (⟨table.classes.set id.index info⟩, id)
  | none => (⟨table.classes ++ [info]⟩, ⟨table.size⟩)

/-- Add several classes, later ones seeing the earlier ones. -/
def addAll (table : ClassTable) (declared : List ClassInfo) : ClassTable :=
  declared.foldl (fun grown info => (grown.add info).1) table

/-- The root class, strings, the enum base, the boxes, and four collection types. -/
def wellKnown : ClassTable :=
  let base := empty.addAll <|
    [.plain objectName, { ClassInfo.plain stringName with isFinal := true }, .plain enumName] ++
    PrimitiveKind.all.map fun kind => { ClassInfo.plain kind.boxName with isFinal := true }
  let (table, collection) := base.add (.interface "java.util.Collection")
  let (table, list) :=
    table.add { ClassInfo.interface "java.util.List" with interfaces := [collection] }
  table.addAll
    [{ ClassInfo.plain "java.util.ArrayList" with interfaces := [list] },
     { ClassInfo.plain "java.util.LinkedList" with interfaces := [list] }]

/-- The source form of a type: a keyword, a class name, or an element type and brackets. -/
def typeName (table : ClassTable) : JvmType → String
  | .primitive kind => kind.name
  | .ofClass id => table.nameOf id
  | .arrayOf element => table.typeName element ++ "[]"

/-- Read the characters of a source form from the right. -/
def typeOfReversed? (table : ClassTable) : List Char → Option JvmType
  | ']' :: '[' :: rest => (table.typeOfReversed? rest).map .arrayOf
  | rest =>
    let name := String.ofList rest.reverse
    match PrimitiveKind.ofName? name with
    | some kind => some (.primitive kind)
    | none => (table.lookup name).map .ofClass

/-- The type a source form denotes: brackets are stripped from the right, and a keyword
wins over a class of the same name. -/
def typeOfName? (table : ClassTable) (text : String) : Option JvmType :=
  table.typeOfReversed? text.toList.reverse

end ClassTable

end PauseFlow
