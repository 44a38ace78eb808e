import PauseFlow.Text.Reader

namespace PauseFlow.Toml

open Reader

def isBlankChar (char : Char) : Bool := char = ' ' || char = '\t'

/-- Characters past the ASCII range may stand in comments and strings of all kinds. -/
def isBeyondAscii (char : Char) : Bool := 0x80 ≤ char.toNat

/-- Visible ASCII characters, blanks and all beyond ASCII. -/
def isTextChar (char : Char) : Bool :=
  char = '\t' || (0x20 ≤ char.toNat && char.toNat ≤ 0x7E) || isBeyondAscii char

def blanks : Reader Unit := discard (allWhere isBlankChar)

def newline : Reader Unit := exactly ['\n'] <|> exactly ['\r', '\n']

def comment : Reader Unit := do
  let _ ← char '#'
  discard (allWhere isTextChar)

/-- The rest of a line after a statement. -/
def lineEnd : Reader Unit := do
  blanks
  let _ ← optional comment
  newline <|> atEnd

/-- Blanks over any number of lines. -/
def lineBlanks : Reader Unit := discard (many (discard (charWhere isBlankChar) <|> newline))

/-- Blanks and comments over any number of lines. -/
def spacing : Reader Unit :=
  discard (many (discard (charWhere isBlankChar) <|> newline <|> comment))

end PauseFlow.Toml
