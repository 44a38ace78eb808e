import PauseFlow.Pattern.Bracket
import PauseFlow.Text.Alphanumeric

namespace PauseFlow.Pattern

open Reader

/-- What a parenthesis opens. -/
inductive Opening where
  | change (changes : List ModeChange)
  | group (name : Option String) (changes : List ModeChange)

/-- A letter or underscore, and then also numbers, points and brackets. -/
def isGroupName : List Char → Bool
  | [] => false
  | first :: rest =>
    (first = '_' || Text.isAlphabetic first) &&
      rest.all fun char => char ∈ ['_', '.', '[', ']'] || Text.isAlphanumeric char

def groupName : Reader String := do
  let name ← allWhere (· ≠ '>')
  let _ ← char '>'
  guard (isGroupName name)
  return String.ofList name

def namedOpening : Reader Opening := do
  exactly ['?', 'P', '<'] <|> exactly ['?', '<']
  return .group (some (← groupName)) []

/-- Changes of modes, for a group or for all that follows. -/
def modesOpening : Reader Opening := do
  let _ ← char '?'
  let letters ← allWhere (· ∉ [':', ')'])
  let changes ← liftM (ModeChange.ofLetters? letters)
  match ← any with
  | ':' => return .group none changes
  | _ => do
    guard (letters ≠ [])
    return .change changes

/-- What follows an opening parenthesis. Looking around is refused. -/
def opening (modes : Modes) : Reader Opening := do
  skip modes
  if ← startsWith ['?'] then namedOpening <|> modesOpening else return .group none []

/-- A pattern that is being read: the modes in force, and what was read of it, the last
first. -/
structure Draft where
  modes : Modes
  branches : List Pattern
  parts : List Pattern

namespace Draft

def start (modes : Modes) : Draft := ⟨modes, [], []⟩

def add (draft : Draft) (part : Pattern) : Draft := { draft with parts := part :: draft.parts }

def nextBranch (draft : Draft) : Draft :=
  { draft with branches := .ofParts draft.parts.reverse :: draft.branches, parts := [] }

/-- Repeat the last part; a change of modes cannot be. -/
def repeatLast? (draft : Draft) : Option Draft :=
  match draft.parts with
  | [] | .change _ :: _ => none
  | last :: rest => some { draft with parts := .repeated last :: rest }

def toPattern (draft : Draft) : Pattern := .ofBranches draft.nextBranch.branches.reverse

end Draft

/-- A pattern up to the end or a closing parenthesis, with at most so many groups in one
another. Braces are refused: a pattern stands in braces itself, so none can close. -/
def body : Nat → Modes → Reader Pattern
  | 0, _ => failure
  | nesting + 1, modes => do
    let step (draft : Draft) : Reader Draft := do
      skip draft.modes
      match ← any with
      | '|' => return draft.nextBranch
      | '(' =>
        match ← opening draft.modes with
        | .change changes =>
          return { draft.add (.change changes) with modes := draft.modes.apply changes }
        | .group name changes => do
          let inner ← body nesting (draft.modes.apply changes)
          let _ ← char ')'
          return draft.add (.group name changes inner)
      | '[' => return draft.add (.charSet (← bracketed draft.modes nestingLimit))
      | '?' | '*' | '+' => do
        let _ ← optional (char '?')
        liftM draft.repeatLast?
      | ')' | '\x7b' => failure
      | '.' => return draft.add .anyChar
      | '^' | '$' => return draft.add .anchor
      | '\\' => return draft.add (← escape draft.modes)
      | char => return draft.add (.literal char)
    let draft ← carry step (.start modes)
    skip draft.modes
    return draft.toPattern

/-- A pattern by its text, which has no closing brace. -/
def read? (text : List Char) : Option Pattern := readAll (body (nestingLimit + 1) .initial) text

end PauseFlow.Pattern
