import PauseFlow.Pattern.Basic
import PauseFlow.Text.Blank
import PauseFlow.Text.Digit
import PauseFlow.Text.Reader

namespace PauseFlow.Pattern

open Reader

/-- Pass over blanks and comments where they do not count. -/
def skip (modes : Modes) : Reader Unit :=
  if modes.has .verbose then
    discard (many (discard (charWhere Text.isBlank) <|>
      discard (char '#' *> allWhere (· ≠ '\n'))))
  else pure ()

/-- A character by its number, of a fixed count of digits. -/
def codePoint (modes : Modes) (digits : Nat) : Reader Char := do
  let read ← atMost (skip modes *> charWhere Text.isHexDigit) digits
  guard (read.length = digits)
  liftM (Text.codePoint? read)

/-- What follows a backslash. Marks other than letters and digits stand for themselves.
Properties and references back to a group are refused. -/
def escape (modes : Modes) : Reader Pattern := do
  match ← any with
  | 'x' => .byte <$> codePoint modes 2
  | 'u' => .literal <$> codePoint modes 4
  | 'U' => .literal <$> codePoint modes 8
  | 'd' | 's' | 'w' => return .kind false
  | 'D' | 'S' | 'W' => return .kind true
  | 'a' => return .literal '\x07'
  | 'f' => return .literal '\x0c'
  | 'n' => return .literal '\n'
  | 'r' => return .literal '\r'
  | 't' => return .literal '\t'
  | 'v' => return .literal '\x0b'
  | 'A' | 'z' => return .anchor
  | 'b' | 'B' | '<' | '>' => return .wordEdge
  | mark => do
    guard (mark.toNat < 0x80 && !mark.isAlphanum)
    return .literal mark

end PauseFlow.Pattern
