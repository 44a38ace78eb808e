namespace PauseFlow.Text

def byteCount : List Char → Nat
  | [] => 0
  | letter :: rest => letter.utf8Size + byteCount rest

/-- What follows so many bytes. -/
def dropBytes? : List Char → Nat → Option (List Char)
  | text, 0 => some text
  | [], _ + 1 => none
  | char :: rest, count + 1 =>
    if char.utf8Size ≤ count + 1 then dropBytes? rest (count + 1 - char.utf8Size) else none

/-- The first so many bytes. -/
def takeBytes? : List Char → Nat → Option (List Char)
  | _, 0 => some []
  | [], _ + 1 => none
  | char :: rest, count + 1 =>
    if char.utf8Size ≤ count + 1 then
      (takeBytes? rest (count + 1 - char.utf8Size)).map (char :: ·)
    else none

end PauseFlow.Text
