import PauseFlow.Hierarchy.ClassTable

namespace PauseFlow.Signature

def string : String := "Ljava/lang/String;"

/-- Number of leading `[`. -/
def depth (signature : List Char) : Nat := (signature.takeWhile (· = '[')).length

/-- What follows the leading `[`. -/
def element (signature : List Char) : List Char := signature.dropWhile (· = '[')

/-- The text between `L` and the final `;`, if the signature has that form. -/
def className? (signature : List Char) : Option (List Char) :=
  match signature with
  | 'L' :: rest => if rest.getLast? = some ';' then some rest.dropLast else none
  | _ => none

/-- Class names in signatures are separated by slashes, elsewhere by dots. -/
def dotted (name : List Char) : String :=
  String.ofList (name.map fun letter => if letter = '/' then '.' else letter)

/-- Name spelled by a signature without leading `[`. -/
def elementName (signature : List Char) : String :=
  match className? signature with
  | some name => dotted name
  | none =>
    match signature with
    | ['V'] => "void"
    | [letter] => (PrimitiveKind.ofDescriptor? letter).elim "<unknown>" (·.name)
    | _ => "<unknown>"

/-- The source name that a signature spells, whether or not such a type is known. -/
def typeName (signature : String) : String :=
  elementName (element signature.toList) ++
    String.join (List.replicate (depth signature.toList) "[]")

/-- The type of a signature without leading `[`. -/
def elementType? (table : ClassTable) (signature : List Char) : Option JvmType :=
  match signature with
  | [letter] => (PrimitiveKind.ofDescriptor? letter).map .primitive
  | _ =>
    match className? signature with
    | some [] => none
    | some name => (table.lookup (dotted name)).map .ofClass
    | none => none

/-- The type a signature denotes; none for malformed signatures and unknown classes. -/
def type? (table : ClassTable) (signature : String) : Option JvmType :=
  (elementType? table (element signature.toList)).map
    fun type => type.arrayOfDepth (depth signature.toList)

end PauseFlow.Signature
