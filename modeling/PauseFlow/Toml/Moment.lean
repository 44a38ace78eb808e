import PauseFlow.Toml.Quoted
import PauseFlow.Toml.Value

namespace PauseFlow.Toml

open Reader

/-- A number of so many digits, within bounds. -/
def fixedNumber (digits least greatest : Nat) : Reader Nat := do
  let read ← atMost (charWhere Char.isDigit) digits
  let number := Text.numberOf 10 read
  guard (read.length = digits ∧ least ≤ number ∧ number ≤ greatest)
  return number

def isLeapYear (year : Nat) : Bool := year % 4 = 0 && (year % 100 ≠ 0 || year % 400 = 0)

def daysOfMonth (year month : Nat) : Nat :=
  if month = 2 then if isLeapYear year then 29 else 28
  else if month ∈ [4, 6, 9, 11] then 30
  else 31

def date : Reader Unit := do
  let year ← fixedNumber 4 0 9999
  let _ ← char '-'
  let month ← fixedNumber 2 1 12
  let _ ← char '-'
  discard (fixedNumber 2 1 (daysOfMonth year month))

def hourAndMinute : Reader Unit := do
  let _ ← fixedNumber 2 0 23
  let _ ← char ':'
  discard (fixedNumber 2 0 59)

/-- A time of day; a minute may have a leap second. -/
def timeOfDay : Reader Unit := do
  hourAndMinute
  let _ ← char ':'
  let _ ← fixedNumber 2 0 60
  discard (optional (char '.' *> charWhere Char.isDigit *> allWhere Char.isDigit))

def offset : Reader Unit :=
  discard (char 'Z' <|> char 'z') <|> (char '+' <|> char '-') *> hourAndMinute

/-- A date, which a time and an offset may follow, or a time alone. -/
def moment : Reader Value := do
  let dated := date *>
    discard (optional ((char 'T' <|> char 't' <|> char ' ') *> timeOfDay *> optional offset))
  return .moment (String.ofList (← taken (dated <|> timeOfDay)))

end PauseFlow.Toml
