import PauseFlow.Pattern.CharSet

namespace PauseFlow

open Pattern in
/-- A pattern as far as its use depends on it: what it matches is left out where that does
not matter. -/
inductive Pattern where
  | empty
  /-- A change of modes for what follows in the same group. -/
  | change (changes : List ModeChange)
  | literal (char : Char)
  /-- A character by two digits; without Unicode it is the byte with this number. -/
  | byte (char : Char)
  | anyChar
  /-- The start or end of the text or of a line. -/
  | anchor
  /-- The start or end of a word, or a place that is neither. -/
  | wordEdge
  /-- Digits, blanks or letters of words. -/
  | kind (isComplement : Bool)
  | charSet (set : CharSet)
  | repeated (body : Pattern)
  | group (name : Option String) (changes : List ModeChange) (body : Pattern)
  | sequence (parts : List Pattern)
  | choice (branches : List Pattern)

namespace Pattern

def ofParts : List Pattern → Pattern
  | [] => .empty
  | [part] => part
  | parts => .sequence parts

def ofBranches : List Pattern → Pattern
  | [branch] => branch
  | branches => .choice branches

mutual

/-- How many patterns and sets stand in one another. -/
def depth : Pattern → Nat
  | .charSet set => set.depth
  | .repeated body => body.depth + 1
  | .group _ _ body => body.depth + 1
  | .sequence parts => depthOfAll parts + 1
  | .choice branches => depthOfAll branches + 1
  | _ => 0

def depthOfAll : List Pattern → Nat
  | [] => 0
  | part :: rest => max part.depth (depthOfAll rest)

end

mutual

/-- The names of groups. -/
def names : Pattern → List String
  | .repeated body => body.names
  | .group name _ body => name.toList ++ body.names
  | .sequence parts => namesOfAll parts
  | .choice branches => namesOfAll branches
  | _ => []

def namesOfAll : List Pattern → List String
  | [] => []
  | part :: rest => part.names ++ namesOfAll rest

end

/-- Whether a pattern without parts can be used. Beyond ASCII letter case, kinds of characters
and words are not known, and in bytes only what is ASCII is sure to be characters. -/
def isSupportedAlone (modes : Modes) : Pattern → Bool
  | .literal _ => !(modes.has .unicode && modes.has .ignoreCase)
  | .byte char => isSupportedMember modes char
  | .anyChar => modes.has .unicode
  | .wordEdge => !modes.has .unicode
  | .kind isComplement => isSupportedKind modes isComplement
  | .charSet set => set.isSupported modes
  | _ => true

mutual

/-- The modes in force after a pattern, if it can be used. -/
def after? (modes : Modes) : Pattern → Option Modes
  | .change changes => some (modes.apply changes)
  | .repeated body => after? modes body
  | .group _ changes body => (after? (modes.apply changes) body).map fun _ => modes
  | .sequence parts => afterAll? modes parts
  | .choice branches => afterAll? modes branches
  | pattern => if pattern.isSupportedAlone modes then some modes else none

def afterAll? (modes : Modes) : List Pattern → Option Modes
  | [] => some modes
  | part :: rest => (after? modes part).bind fun modes => afterAll? modes rest

end

/-- How many patterns and sets may stand in one another. -/
def nestingLimit : Nat := 250

/-- Whether a pattern can be used: it is not nested too deep, no two groups have one name,
and all of it is supported. -/
def isUsable (pattern : Pattern) : Bool :=
  pattern.depth ≤ nestingLimit && pattern.names.Nodup && (after? .initial pattern).isSome

end Pattern

end PauseFlow
