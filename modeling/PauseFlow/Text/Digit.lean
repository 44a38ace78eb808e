namespace PauseFlow.Text

def isHexDigit (char : Char) : Bool :=
  char.isDigit || ('a' ≤ char && char ≤ 'f') || ('A' ≤ char && char ≤ 'F')

def digitValue (digit : Char) : Nat :=
  if digit.isDigit then digit.toNat - '0'.toNat else digit.toLower.toNat - 'a'.toNat + 10

/-- Number with these digits. -/
def numberOf (base : Nat) (digits : List Char) : Nat :=
  digits.foldl (fun number digit => number * base + digitValue digit) 0

/-- A character by its number in base sixteen. -/
def codePoint? (digits : List Char) : Option Char :=
  let number := numberOf 16 digits
  if number.isValidChar then some (Char.ofNat number) else none

end PauseFlow.Text
