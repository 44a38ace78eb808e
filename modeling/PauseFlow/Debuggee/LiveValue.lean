import PauseFlow.Abstract.Value

/-! Values inside the debuggee. Two of them denote the same runtime entity when they are
the same object, or primitives of one kind with the same bits. -/
namespace PauseFlow

/-- Objects, types, fields and threads are known to the debugger by number. -/
abbrev ObjectId := Nat

abbrev TypeId := Nat

abbrev FieldId := Nat

/-- An object with the name of its runtime type, which may be unknown and then is empty. -/
structure ObjectRef where
  id : ObjectId
  typeName : String
deriving DecidableEq

inductive LiveValue where
  | null
  | void
  | boolean (value : Bool)
  | byte (value : Int8)
  | short (value : Int16)
  | int (value : Int32)
  | long (value : Int64)
  | float (bits : UInt32)
  | double (bits : UInt64)
  | char (value : Char)
  | object (ref : ObjectRef)
deriving DecidableEq

namespace LiveValue

/-- The value without the type name of an object, which plays no part in its identity. -/
def identity : LiveValue → LiveValue
  | object ref => object { ref with typeName := "" }
  | value => value

/-- Whether two values denote the same runtime entity. -/
def same (left right : LiveValue) : Bool := left.identity = right.identity

/-- What is known of a variable that holds a primitive value. -/
def constant? : LiveValue → Option AbstractValue
  | boolean value => some (.boolean value)
  | byte value => some (.primitive .byte (some (.integral value.toInt)))
  | short value => some (.primitive .short (some (.integral value.toInt)))
  | int value => some (.primitive .int (some (.integral value.toInt)))
  | long value => some (.primitive .long (some (.integral value.toInt)))
  | char value => some (.primitive .char (some (.char value)))
  | float bits => some (.float bits)
  | double bits => some (.double bits)
  | null => none
  | void => none
  | object _ => none

end LiveValue

end PauseFlow
