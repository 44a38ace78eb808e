import PauseFlow.Text.Digit
import PauseFlow.Toml.Blank

namespace PauseFlow.Toml

open Reader

/-- A character that stands for itself in a string with escapes. -/
def isPlainChar (char : Char) : Bool := isTextChar char && char ≠ '"' && char ≠ '\\'

/-- A character of a literal string. -/
def isLiteralChar (char : Char) : Bool := isTextChar char && char ≠ '\''

/-- A character by its number, of a fixed count of digits. -/
def scalar (digits : Nat) : Reader Char := do
  let read ← atMost (charWhere Text.isHexDigit) digits
  guard (read.length = digits)
  liftM (Text.codePoint? read)

/-- What a backslash and the characters after it stand for. -/
def escape : Reader Char := do
  let _ ← char '\\'
  match ← any with
  | 'b' => return '\x08'
  | 't' => return '\t'
  | 'n' => return '\n'
  | 'f' => return '\x0c'
  | 'r' => return '\r'
  | '"' => return '"'
  | '\\' => return '\\'
  | 'u' => scalar 4
  | 'U' => scalar 8
  | _ => failure

def basicString : Reader String := do
  let _ ← char '"'
  let chars ← many (charWhere isPlainChar <|> escape)
  let _ ← char '"'
  return String.ofList chars

def literalString : Reader String := do
  let _ ← char '\''
  let chars ← allWhere isLiteralChar
  let _ ← char '\''
  return String.ofList chars

/-- A backslash at the end of a line takes the blanks and line ends after it. -/
def joinedLines : Reader (List Char) := do
  let _ ← char '\\'
  blanks
  newline
  lineBlanks
  return []

/-- The end of a string over several lines. Up to two more quotes before it belong to the
string; the answer is those. -/
def longEnd (quote : Char) : Reader (List Char) := do
  let quotes ← atMost (char quote) 5
  guard (3 ≤ quotes.length)
  return quotes.drop 3

/-- A string over several lines: pieces up to the closing quotes. A line end right after the
opening quotes is dropped, and each line end reads as one character. -/
def longString (quote : Char) (piece : Reader (List Char)) : Reader String := do
  let quotes := [quote, quote, quote]
  exactly quotes
  let _ ← optional newline
  let pieces ← many do
    guard (!(← startsWith quotes))
    piece <|> newline *> pure ['\n'] <|> List.singleton <$> char quote
  return String.ofList (pieces.flatten ++ (← longEnd quote))

def longBasicString : Reader String :=
  longString '"' (List.singleton <$> charWhere isPlainChar <|> joinedLines <|>
    List.singleton <$> escape)

def longLiteralString : Reader String :=
  longString '\'' (List.singleton <$> charWhere isLiteralChar)

def string : Reader String :=
  longBasicString <|> basicString <|> longLiteralString <|> literalString

def isBareKeyChar (char : Char) : Bool :=
  char.isAlphanum || char = '_' || char = '-'

def bareKey : Reader String := do
  let chars ← allWhere isBareKeyChar
  guard (chars ≠ [])
  return String.ofList chars

/-- Most parts of a dotted key, and most brackets that may be open at once. -/
def nestingLimit : Nat := 79

/-- A key with its way: the parts before the last, and the last. -/
def key : Reader (List String × String) := do
  let parts ← separated (blanks *> (basicString <|> literalString <|> bareKey) <* blanks)
    (char '.')
  guard (parts.length ≤ nestingLimit)
  match parts.getLast? with
  | some last => return (parts.dropLast, last)
  | none => failure

end PauseFlow.Toml
