import PauseFlow.Pattern.Element

namespace PauseFlow.Pattern

open Reader

def classNames : List String :=
  ["alnum", "alpha", "ascii", "blank", "cntrl", "digit", "graph", "lower", "print", "punct",
   "space", "upper", "word", "xdigit"]

def namedClass : Reader CharSet := do
  exactly ['[', ':']
  let isComplement := (← optional (char '^')).isSome
  let name ← allWhere (· ≠ ':')
  exactly [':', ']']
  guard (String.ofList name ∈ classNames)
  return .named isComplement

def member (modes : Modes) : Reader Pattern :=
  char '\\' *> escape modes <|> .literal <$> charWhere (· ≠ '\\')

def literal? : Pattern → Option Char
  | .literal char => some char
  | .byte char => some char
  | _ => none

def toSet? : Pattern → Option CharSet
  | .kind isComplement => some (.kind isComplement)
  | pattern => pattern.literal?.map .literal

/-- The next character that counts. Of a comment its first character is taken. -/
def nextVisible? (modes : Modes) (text : List Char) : Option Char :=
  if modes.has .verbose then
    let visible :=
      match text.dropWhile Text.isBlank with
      | '#' :: rest => rest.dropWhile Text.isBlank
      | rest => rest
    visible.head?.or text.head?
  else text.head?

/-- One member or a range of them. A dash before the closing bracket or another dash makes
no range. -/
def members (modes : Modes) : Reader CharSet := do
  let first ← member modes
  skip modes
  match ← get with
  | '-' :: rest =>
    if nextVisible? modes rest ∈ [some ']', some '-'] then liftM first.toSet?
    else do
      let _ ← char '-'
      skip modes
      let last ← member modes
      match first.literal?, last.literal? with
      | some first, some last => do
        guard (first ≤ last)
        return .range first last
      | _, _ => failure
  | _ => liftM first.toSet?

/-- Intersection or one of the two differences. -/
def setOperator : Reader Unit :=
  exactly ['&', '&'] <|> exactly ['-', '-'] <|> exactly ['~', '~']

/-- What may stand before other members: dashes, or else a closing bracket. -/
def leadingMembers (modes : Modes) : Reader (List Char) := do
  let dashes ← many (char '-' <* skip modes)
  if dashes = [] then return (← optional (char ']' <* skip modes)).toList else return dashes

/-- A set after its opening bracket, with at most so many sets in one another. -/
def bracketed (modes : Modes) : Nat → Reader CharSet
  | 0 => failure
  | nesting + 1 => do
    skip modes
    let isComplement := (← optional (char '^' <* skip modes)).isSome
    let part : Reader CharSet := do
      skip modes
      match ← get with
      | ']' :: _ | '&' :: '&' :: _ | '-' :: '-' :: _ | '~' :: '~' :: _ => failure
      | '[' :: _ => namedClass <|> char '[' *> bracketed modes nesting
      | _ => members modes
    let leading ← leadingMembers modes
    let left := CharSet.ofParts (leading.map .literal ++ (← many part))
    let others ← many (skip modes *> setOperator *> .ofParts <$> many part)
    skip modes
    let _ ← char ']'
    return .bracketed isComplement (others.foldl .combined left)

end PauseFlow.Pattern
