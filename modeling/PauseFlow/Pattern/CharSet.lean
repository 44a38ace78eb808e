import PauseFlow.Pattern.Mode

namespace PauseFlow.Pattern

/-- A set as far as its use depends on it: which class or operator it names does not matter. -/
inductive CharSet where
  | empty
  | literal (char : Char)
  | range (first last : Char)
  /-- A class by name, such as `[:alpha:]`. -/
  | named (isComplement : Bool)
  /-- Digits, blanks or letters of words. -/
  | kind (isComplement : Bool)
  | bracketed (isComplement : Bool) (inner : CharSet)
  | union (parts : List CharSet)
  /-- An intersection or difference. -/
  | combined (left right : CharSet)

/-- A character of a set. Letter case is not known beyond ASCII, and bytes stand for
characters only in ASCII. -/
def isSupportedMember (modes : Modes) (char : Char) : Bool :=
  if modes.has .unicode then !modes.has .ignoreCase else char.toNat < 0x80

/-- Kinds of characters are not known beyond ASCII, and bytes that are not of a kind may be no
characters. -/
def isSupportedKind (modes : Modes) (isComplement : Bool) : Bool :=
  !modes.has .unicode && !isComplement

namespace CharSet

def ofParts : List CharSet → CharSet
  | [] => .empty
  | [part] => part
  | parts => .union parts

mutual

/-- How many sets stand in one another. -/
def depth : CharSet → Nat
  | .bracketed _ inner => inner.depth + 1
  | .union parts => depthOfAll parts + 1
  | .combined left right => max left.depth right.depth + 1
  | _ => 0

def depthOfAll : List CharSet → Nat
  | [] => 0
  | part :: rest => max part.depth (depthOfAll rest)

end

mutual

/-- Whether a set can be used. The complement of a set of bytes cannot, as it has bytes that
are no characters. -/
def isSupported (modes : Modes) : CharSet → Bool
  | .empty => true
  | .literal char => isSupportedMember modes char
  | .range first last => isSupportedMember modes first && isSupportedMember modes last
  | .named isComplement => if modes.has .unicode then !modes.has .ignoreCase else !isComplement
  | .kind isComplement => isSupportedKind modes isComplement
  | .bracketed isComplement inner =>
    (modes.has .unicode || !isComplement) && inner.isSupported modes
  | .union parts => areSupported modes parts
  | .combined left right => left.isSupported modes && right.isSupported modes

def areSupported (modes : Modes) : List CharSet → Bool
  | [] => true
  | part :: rest => part.isSupported modes && areSupported modes rest

end

end CharSet

end PauseFlow.Pattern
