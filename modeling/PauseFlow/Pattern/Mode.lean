namespace PauseFlow.Pattern

inductive Mode where
  | ignoreCase
  | multiLine
  | dotMatchesNewline
  | swapGreed
  /-- Characters are matched, rather than bytes. -/
  | unicode
  | carriageReturns
  /-- Blanks and comments do not count. -/
  | verbose
deriving DecidableEq

def Mode.ofLetter? : Char → Option Mode
  | 'i' => some .ignoreCase
  | 'm' => some .multiLine
  | 's' => some .dotMatchesNewline
  | 'U' => some .swapGreed
  | 'u' => some .unicode
  | 'R' => some .carriageReturns
  | 'x' => some .verbose
  | _ => none

structure ModeChange where
  mode : Mode
  enabled : Bool
deriving DecidableEq

/-- Changes by their letters: those after a minus are turned off. None may come twice, and a
minus has letters after it. -/
def ModeChange.ofLetters? (letters : List Char) : Option (List ModeChange) := do
  let (on, rest) := letters.span (· ≠ '-')
  let off := rest.tail
  guard (rest = [] ∨ off ≠ [])
  let enabled ← on.mapM Mode.ofLetter?
  let disabled ← off.mapM Mode.ofLetter?
  guard (enabled ++ disabled).Nodup
  return enabled.map (⟨·, true⟩) ++ disabled.map (⟨·, false⟩)

/-- The modes in force. -/
structure Modes where
  active : List Mode
deriving DecidableEq

namespace Modes

def has (modes : Modes) (mode : Mode) : Bool := mode ∈ modes.active

/-- The modes at the start of every pattern. -/
def initial : Modes := ⟨[.unicode]⟩

def change (modes : Modes) (change : ModeChange) : Modes :=
  let others := modes.active.filter (· ≠ change.mode)
  ⟨if change.enabled then change.mode :: others else others⟩

def apply (modes : Modes) (changes : List ModeChange) : Modes := changes.foldl Modes.change modes

end Modes

end PauseFlow.Pattern
