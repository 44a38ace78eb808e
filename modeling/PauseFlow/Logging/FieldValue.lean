import PauseFlow.Number.Shortest
import PauseFlow.Pattern.Body
import PauseFlow.Text.Ascii

namespace PauseFlow.Logging

inductive FieldValue where
  | boolean (value : Bool)
  /-- A floating-point number that is not a NaN, by its bits. -/
  | float (bits : UInt64)
  | nan
  | unsigned (value : Nat)
  | negative (value : Int)
  /-- A pattern, by its text. -/
  | pattern (text : String)
deriving DecidableEq

namespace FieldValue

/-- A number with its sign: whether there was a minus, and what follows the sign. -/
def splitSign : List Char → Bool × List Char
  | '-' :: rest => (true, rest)
  | '+' :: rest => (false, rest)
  | text => (false, text)

def signedInteger? (text : List Char) : Option Int :=
  let (isNegative, digits) := splitSign text
  (Text.natural? digits).bind fun number =>
    if digits.head? = some '+' then none
    else some (if isNegative then -number else number)

/-- Whole and fraction digits, and what follows them. A point may stand at either end, but
not alone. -/
def decimalDigits? (text : List Char) : Option (List Char × List Char × List Char) :=
  let (whole, rest) := text.span Char.isDigit
  let (fraction, rest) :=
    match rest with
    | '.' :: rest => rest.span Char.isDigit
    | _ => ([], rest)
  if whole = [] ∧ fraction = [] then none else some (whole, fraction, rest)

def exponent? : List Char → Option Int
  | [] => some 0
  | mark :: rest => if mark = 'e' ∨ mark = 'E' then signedInteger? rest else none

/-- Magnitude of a floating-point number by its text without a sign. -/
def magnitude? (text : List Char) : Option Nat :=
  let word := Text.lowered text
  if word = "inf".toList ∨ word = "infinity".toList then some Binary64.infinity
  else if word = "nan".toList then some (Binary64.infinity + Nat.pow 2 51)
  else do
    let (whole, fraction, rest) ← decimalDigits? text
    let power ← exponent? rest
    let digits ← Text.natural? (whole ++ fraction)
    return Binary64.nearestToDecimal digits (power - fraction.length)

def float? (text : List Char) : Option FieldValue :=
  let (isNegative, rest) := splitSign text
  (magnitude? rest).map fun magnitude =>
    if Binary64.infinity < magnitude then .nan
    else .float (Binary64.withSign isNegative magnitude)

def boolean? (text : List Char) : Option FieldValue :=
  if text = "true".toList then some (.boolean true)
  else if text = "false".toList then some (.boolean false)
  else none

def unsigned? (text : List Char) : Option FieldValue :=
  (Text.natural? text).bind fun number =>
    if number < Nat.pow 2 64 then some (.unsigned number) else none

def negative? (text : List Char) : Option FieldValue :=
  (signedInteger? text).bind fun number =>
    if -(Nat.pow 2 63) ≤ number ∧ number < Nat.pow 2 63 then some (.negative number) else none

/-- A text that is no other value, if it is a pattern that can be used. -/
def pattern? (text : List Char) : Option FieldValue := do
  guard (← Pattern.read? text).isUsable
  return .pattern (String.ofList text)

/-- The first kind of value that the text is. -/
def ofText? (text : List Char) : Option FieldValue :=
  boolean? text <|> unsigned? text <|> negative? text <|> float? text <|> pattern? text

def text : FieldValue → String
  | .boolean value => if value then "true" else "false"
  | .float bits => Binary64.text bits
  | .nan => "NaN"
  | .unsigned value => toString value
  | .negative value => toString value
  | .pattern text => text

/-- Numbers in their order, with both zeros equal. -/
def floatKey (bits : UInt64) : Int :=
  let magnitude : Int := Binary64.magnitude bits
  if Binary64.isNegative bits then -magnitude else magnitude

/-- Place of the kind of value in the order. -/
def kindRank : FieldValue → Nat
  | .boolean _ => 0
  | .float _ => 1
  | .nan => 2
  | .unsigned _ => 3
  | .negative _ => 4
  | .pattern _ => 5

def compare (left right : FieldValue) : Ordering :=
  match left, right with
  | .boolean left, .boolean right => Ord.compare left right
  | .float left, .float right => Ord.compare (floatKey left) (floatKey right)
  | .unsigned left, .unsigned right => Ord.compare left right
  | .negative left, .negative right => Ord.compare left right
  | .pattern left, .pattern right => Ord.compare left right
  | _, _ => Ord.compare left.kindRank right.kindRank

end FieldValue

end PauseFlow.Logging
