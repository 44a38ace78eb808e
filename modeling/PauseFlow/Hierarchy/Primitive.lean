namespace PauseFlow

/-- A primitive kind of the virtual machine. -/
inductive PrimitiveKind where
  | boolean
  | byte
  | char
  | short
  | int
  | long
  | float
  | double
deriving DecidableEq

namespace PrimitiveKind

/-- Every kind once, in declaration order. -/
def all : List PrimitiveKind := [boolean, byte, char, short, int, long, float, double]

/-- The keyword that names the kind in source text. -/
def name : PrimitiveKind → String
  | boolean => "boolean"
  | byte => "byte"
  | char => "char"
  | short => "short"
  | int => "int"
  | long => "long"
  | float => "float"
  | double => "double"

/-- The letter that stands for the kind in a signature. -/
def descriptor : PrimitiveKind → Char
  | boolean => 'Z'
  | byte => 'B'
  | char => 'C'
  | short => 'S'
  | int => 'I'
  | long => 'J'
  | float => 'F'
  | double => 'D'

/-- The class whose instances box a value of the kind. -/
def boxName : PrimitiveKind → String
  | boolean => "java.lang.Boolean"
  | byte => "java.lang.Byte"
  | char => "java.lang.Character"
  | short => "java.lang.Short"
  | int => "java.lang.Integer"
  | long => "java.lang.Long"
  | float => "java.lang.Float"
  | double => "java.lang.Double"

def ofName? (text : String) : Option PrimitiveKind := all.find? fun kind => kind.name = text

def ofDescriptor? (letter : Char) : Option PrimitiveKind :=
  all.find? fun kind => kind.descriptor = letter

def ofBoxName? (text : String) : Option PrimitiveKind := all.find? fun kind => kind.boxName = text

/-- Whether comparison of two values of the kind follows floating-point rules. -/
def isFloating (kind : PrimitiveKind) : Bool := kind = float || kind = double

end PrimitiveKind

end PauseFlow
