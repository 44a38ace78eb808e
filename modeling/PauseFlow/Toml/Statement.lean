import PauseFlow.Toml.Draft
import PauseFlow.Toml.Moment
import PauseFlow.Toml.Numeral

namespace PauseFlow.Toml

open Reader

/-- A key with its way and the value it is set to. -/
structure Assignment where
  path : List String
  key : String
  value : Value

/-- What starts a new table. -/
structure Header where
  /-- Whether the table is one more of an array. -/
  isElement : Bool
  parents : List String
  key : String

inductive Statement where
  | assignment (assignment : Assignment)
  | header (header : Header)

def Assignment.applyTo (entries : Entries) (assignment : Assignment) : Option Entries :=
  entries.assign assignment.key assignment.value assignment.path

/-- A value without parts. -/
def simpleValue : Reader Value :=
  .string <$> string
  <|> exactly "true".toList *> pure (.boolean true)
  <|> exactly "false".toList *> pure (.boolean false)
  <|> moment <|> decimal <|> specialNumber <|> integer

/-- An array may go over several lines and end with a comma. -/
def array (element : Reader Value) : Reader Value := do
  let _ ← char '['
  let elements ← optional (separated (spacing *> element <* spacing) (char ',')
    <* optional (char ','))
  spacing
  let _ ← char ']'
  return .array (elements.getD [])

def assignment (value : Reader Value) : Reader Assignment := do
  let (path, key) ← key
  let _ ← char '='
  blanks
  return ⟨path, key, ← value⟩

/-- A table on one line, complete as it stands. -/
def inlineTable (element : Reader Value) : Reader Value := do
  let _ ← char '\x7b'
  let assignments ← optional (separated (assignment element <* blanks) (char ','))
  blanks
  let _ ← char '\x7d'
  let entries ← liftM ((assignments.getD []).foldlM Assignment.applyTo ([] : Entries))
  return .table (sealEntries entries)

/-- A value with at most so many brackets open at once. -/
def value : Nat → Reader Value
  | 0 => simpleValue
  | nesting + 1 => simpleValue <|> array (value nesting) <|> inlineTable (value nesting)

def header : Reader Header := do
  let isElement := (← optional (exactly ['[', '['])).isSome
  if !isElement then discard (char '[')
  let (parents, key) ← key
  exactly (if isElement then [']', ']'] else [']'])
  return ⟨isElement, parents, key⟩

def statement : Reader Statement :=
  .header <$> header <|> .assignment <$> assignment (value nestingLimit)

/-- A line, with its statement if it has one. -/
def line : Reader (Option Statement) :=
  newline *> pure none
  <|> comment *> (newline <|> atEnd) *> pure none
  <|> some <$> statement <* lineEnd

/-- The statements of a document. A mark of the byte order may stand in front. -/
def statements : Reader (List Statement) := do
  let _ ← optional (char '\uFEFF')
  blanks
  return (← many (line <* blanks)).filterMap id

end PauseFlow.Toml
