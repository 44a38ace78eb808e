import PauseFlow.Text.Invisible

namespace PauseFlow.Text

/-- Number in base sixteen, in small letters. -/
def hexadecimal (number : Nat) : List Char := Nat.toDigits 16 number

/-- How one character is shown: some by a letter, invisible ones by number, the others
as they are. -/
def quotedChar : Char → List Char
  | '"' => ['\\', '"']
  | '\\' => ['\\', '\\']
  | '\n' => ['\\', 'n']
  | '\r' => ['\\', 'r']
  | '\t' => ['\\', 't']
  | '\x00' => ['\\', '0']
  | char =>
    if isInvisible char then ['\\', 'u', '\x7b'] ++ hexadecimal char.toNat ++ ['\x7d']
    else [char]

def quoted (text : String) : String :=
  String.ofList ('"' :: text.toList.flatMap quotedChar ++ ['"'])

end PauseFlow.Text
