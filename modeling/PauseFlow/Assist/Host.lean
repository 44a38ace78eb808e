import PauseFlow.Assist.Failure
import PauseFlow.Flow.Graph

namespace PauseFlow

/-- An analysable body of code. -/
structure CodeBlock where
  number : Nat
deriving DecidableEq

/-- The source construct at the pause, as the editor sees it. -/
structure SourceElement where
  language : String
  /-- Whether no edit has invalidated the element. -/
  valid : Bool
  /-- Binary name of the innermost enclosing top-level or member class. -/
  enclosingClass : String
  line : Nat
  anchor : Option Anchor
  codeBlock : Option CodeBlock
deriving DecidableEq

namespace SourceElement

/-- Whether a signature is that of a class with a name. -/
def isClassSignature (signature : String) : Bool :=
  match Signature.className? signature.toList with
  | some (_ :: _) => true
  | _ => false

/-- Whether a type is a class or nested in it. Lambdas, local and anonymous classes have
nested names too. -/
def encloses (enclosing : String) (typeName : String) : Bool :=
  typeName = enclosing || (enclosing.toList ++ ['$']).isPrefixOf typeName.toList

/-- Whether the debuggee is paused at the element. -/
def matchesLocation (element : SourceElement) (location : Location) : Except AssistFailure Bool :=
  if isClassSignature location.signature then
    .ok (location.line = element.line &&
      encloses element.enclosingClass (Signature.typeName location.signature))
  else .error (.invalidLocation location.signature)

end SourceElement

/-- What the assist needs from the editor. -/
structure Host where
  /-- Whether indices are being rebuilt, so that results would be unreliable. -/
  isIndexing : Bool
  /-- The languages the assist knows. -/
  languages : List String
  /-- The classes visible from a code block. -/
  classTable : CodeBlock → ClassTable
  /-- The control flow of a code block with the variables it needs; none if the block
  cannot be analysed. -/
  buildFlow : CodeBlock → Variables → Option (FlowGraph × Variables)

namespace Host

/-- The languages known without further registration. -/
def builtInLanguages : List String := ["java"]

/-- The known languages, as shown in a report. -/
def describeLanguages (host : Host) : String :=
  "ProviderRegistry \x7b languages: [" ++
    ", ".intercalate (host.languages.map fun language => "\"" ++ language ++ "\"") ++ "] \x7d"

end Host

end PauseFlow
