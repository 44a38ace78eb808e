import PauseFlow.Number.Nearest
import PauseFlow.Toml.Quoted
import PauseFlow.Toml.Value

namespace PauseFlow.Toml

open Reader

/-- Digits with single underscores between some of them; the answer is the digits. -/
def digitsWhere (accepts : Char → Bool) : Reader (List Char) := do
  let first ← charWhere accepts
  return first :: (← many (charWhere accepts <|> char '_' *> charWhere accepts))

def digits : Reader (List Char) := digitsWhere Char.isDigit

/-- Whether a minus sign was read. -/
def sign : Reader Bool := return (← optional (char '-' <|> char '+')) = some '-'

/-- Digits of a whole number; only zero starts with a zero. -/
def wholeDigits : Reader (List Char) := do
  let first ← charWhere Char.isDigit
  if first = '0' then return [first]
  else return first :: (← many (charWhere Char.isDigit <|> char '_' *> charWhere Char.isDigit))

/-- An integer with a mark for its base. -/
def basedInteger (mark : Char) (base : Nat) (accepts : Char → Bool) : Reader Int := do
  exactly ['0', mark]
  return Text.numberOf base (← digitsWhere accepts)

def signed (negative : Bool) (number : Int) : Int := if negative then -number else number

/-- An integer of 64 bits. -/
def integer : Reader Value := do
  let number : Int ←
    basedInteger 'x' 16 Text.isHexDigit
    <|> basedInteger 'o' 8 (fun char => '0' ≤ char && char ≤ '7')
    <|> basedInteger 'b' 2 (fun char => char = '0' || char = '1')
    <|> (do return signed (← sign) (Text.numberOf 10 (← wholeDigits)))
  guard (-(Nat.pow 2 63) ≤ number ∧ number < Nat.pow 2 63)
  return .integer number

def exponent : Reader Int := do
  let _ ← char 'e' <|> char 'E'
  return signed (← sign) (Text.numberOf 10 (← digits))

/-- A number with a fraction or an exponent. A positive one beyond the range is refused; a
negative one becomes infinite. -/
def decimal : Reader Value := do
  let negative ← sign
  let whole ← wholeDigits
  let fraction ← optional (char '.' *> digits)
  let power ← optional exponent
  guard (fraction.isSome || power.isSome)
  let fraction := fraction.getD []
  let digits := Text.numberOf 10 (whole ++ fraction)
  let magnitude := Binary64.nearestToDecimal digits (power.getD 0 - fraction.length)
  guard (negative || magnitude < Binary64.infinity)
  return .float (Binary64.withSign negative magnitude)

/-- Infinity and the quiet NaN, by name. -/
def specialNumber : Reader Value := do
  let negative ← sign
  let magnitude ←
    exactly ['i', 'n', 'f'] *> pure Binary64.infinity
    <|> exactly ['n', 'a', 'n'] *> pure (Binary64.infinity + Nat.pow 2 51)
  return .float (Binary64.withSign negative magnitude)

end PauseFlow.Toml
