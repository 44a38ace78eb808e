namespace PauseFlow

abbrev Reader := StateT (List Char) Option

namespace Reader

def charWhere (accepts : Char → Bool) : Reader Char := fun text =>
  match text with
  | [] => none
  | char :: rest => if accepts char then some (char, rest) else none

def any : Reader Char := charWhere fun _ => true

def char (expected : Char) : Reader Char := charWhere fun char => char = expected

/-- Exactly these characters. -/
def exactly (expected : List Char) : Reader Unit := fun text =>
  if expected.isPrefixOf text then some ((), text.drop expected.length) else none

/-- Whether these characters come next; nothing is taken. -/
def startsWith (expected : List Char) : Reader Bool := fun text =>
  some (expected.isPrefixOf text, text)

/-- All characters of a class, as far as they go. -/
def allWhere (accepts : Char → Bool) : Reader (List Char) := fun text =>
  some (text.span accepts)

def atMost {α : Type} (reader : Reader α) : Nat → Reader (List α)
  | 0 => pure []
  | count + 1 => do
    match ← optional reader with
    | some first => return first :: (← reader.atMost count)
    | none => return []

/-- Carry a value through a reader as often as it goes. A reader that takes something each
time ends within the length of the text. -/
def carry {σ : Type} (reader : σ → Reader σ) (start : σ) : Reader σ := do
  go (← get) start
where
  go : List Char → σ → Reader σ
    | [], value => pure value
    | _ :: ahead, value => do
      match ← optional (reader value) with
      | some next => go ahead next
      | none => return value

/-- As often as it goes. -/
def many {α : Type} (reader : Reader α) : Reader (List α) :=
  List.reverse <$> carry (fun read => (· :: read) <$> reader) []

/-- At least once, with a separator between. -/
def separated {α β : Type} (reader : Reader α) (separator : Reader β) : Reader (List α) := do
  let first ← reader
  return first :: (← (separator *> reader).many)

/-- What a reader took. -/
def taken {α : Type} (reader : Reader α) : Reader (List Char) := do
  let text ← get
  let _ ← reader
  return text.take (text.length - (← get).length)

def atEnd : Reader Unit := fun text => if text = [] then some ((), []) else none

/-- A reader's answer on a whole text. -/
def readAll {α : Type} (reader : Reader α) (text : List Char) : Option α :=
  ((reader <* atEnd).run text).map (·.1)

end Reader

end PauseFlow
