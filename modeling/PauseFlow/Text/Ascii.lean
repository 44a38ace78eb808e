import PauseFlow.Text.Digit

namespace PauseFlow.Text

/-- A number without a minus; it may have a plus in front. -/
def natural? (text : List Char) : Option Nat :=
  let digits := if text.head? = some '+' then text.tail else text
  if digits ≠ [] ∧ digits.all Char.isDigit then some (numberOf 10 digits) else none

/-- The text with its capital letters made small. -/
def lowered (text : List Char) : List Char := text.map Char.toLower

/-- The pieces between separators. -/
def pieces (separator : Char) : List Char → List (List Char)
  | [] => [[]]
  | char :: rest =>
    match pieces separator rest with
    | [] => [[char]]
    | first :: others =>
      if char = separator then [] :: first :: others else (char :: first) :: others

end PauseFlow.Text
