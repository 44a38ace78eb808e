import PauseFlow.Number.Shortest

namespace PauseFlow

inductive Json where
  | boolean (value : Bool)
  | integer (value : Int)
  /-- A finite number written with a point, by the bits of a 64-bit one. -/
  | float (bits : UInt64)
  | string (text : String)
  | array (elements : List Json)
  | object (members : List (String × Json))

namespace Json

/-- The number, if it is one. -/
def number? : Json → Option Rat
  | .integer value => some value
  | .float bits => Binary64.exactValue? bits
  | _ => none

/-- Quotes, backslashes and control characters are escaped. -/
def stringText (text : String) : String :=
  let shown (char : Char) : List Char :=
    if char = '"' ∨ char = '\\' then ['\\', char]
    else if char.toNat < 0x20 then
      let digits := Nat.toDigits 16 char.toNat
      ['\\', 'u'] ++ List.replicate (4 - digits.length) '0' ++ digits
    else [char]
  String.ofList ('"' :: text.toList.flatMap shown ++ ['"'])

mutual

def text : Json → String
  | .boolean value => if value then "true" else "false"
  | .integer value => toString value
  | .float bits => Binary64.textWithPoint bits
  | .string text => stringText text
  | .array elements => "[" ++ ",".intercalate (elementTexts elements) ++ "]"
  | .object members => "\x7b" ++ ",".intercalate (memberTexts members) ++ "\x7d"

def elementTexts : List Json → List String
  | [] => []
  | element :: rest => element.text :: elementTexts rest

def memberTexts : List (String × Json) → List String
  | [] => []
  | (name, value) :: rest => (stringText name ++ ":" ++ value.text) :: memberTexts rest

end

end Json

end PauseFlow
