import PauseFlow.Number.Nearest

/-! The decimal text of a floating-point number: the fewest digits that read back as the
number, and of those the nearest, written without an exponent. -/
namespace PauseFlow.Binary64

/-- Magnitude `significand * 2 ^ exponent` of a finite number, and whether the gap to the
number below is half the gap to the number above. -/
structure Parts where
  significand : Nat
  exponent : Int
  isNarrowBelow : Bool

def parts (magnitude : Nat) : Parts :=
  let exponent : Nat := magnitude / Nat.pow 2 52
  let fraction := magnitude % Nat.pow 2 52
  if exponent = 0 then ⟨fraction, -1074, false⟩
  else ⟨Nat.pow 2 52 + fraction, exponent - 1075, fraction = 0 && 1 < exponent⟩

/-- The number that a pattern stands for; infinities and NaNs stand for none. -/
def exactValue? (bits : UInt64) : Option Rat :=
  if infinity ≤ magnitude bits then none
  else
    let number := parts (magnitude bits)
    let size := mkRat (number.significand * Nat.pow 2 number.exponent.toNat)
      (Nat.pow 2 (-number.exponent).toNat)
    some (if isNegative bits then -size else size)

namespace Parts

/-- Lower end of the interval that rounds to the number, in quarters of its last bit. -/
def lower (number : Parts) : Nat :=
  4 * number.significand - (if number.isNarrowBelow then 1 else 2)

/-- Upper end of the interval, in quarters of the last bit. -/
def upper (number : Parts) : Nat := 4 * number.significand + 2

/-- Factors that make multiples of a power of ten and quarters of the last bit comparable. -/
def commonScale (number : Parts) (power : Int) : Nat × Nat :=
  let quarter := number.exponent - 2
  (Nat.pow 10 power.toNat * Nat.pow 2 (-quarter).toNat,
   Nat.pow 2 quarter.toNat * Nat.pow 10 (-power).toNat)

/-- Whether `digits * 10 ^ power` reads back as the number. The ends of the interval belong to
an even significand. -/
def isReadFrom (number : Parts) (digits : Nat) (power : Int) : Bool :=
  let (decimal, quarters) := number.commonScale power
  let value := digits * decimal
  if number.significand % 2 = 0 then
    number.lower * quarters ≤ value && value ≤ number.upper * quarters
  else number.lower * quarters < value && value < number.upper * quarters

/-- The nearest multiple of a power of ten that reads back; of two equally near ones the
greater. -/
def digitsAt? (number : Parts) (power : Int) : Option Nat :=
  let (decimal, quarters) := number.commonScale power
  let value := 4 * number.significand * quarters
  let below := value / decimal
  match number.isReadFrom below power, number.isReadFrom (below + 1) power with
  | true, true => some (if 2 * value < (2 * below + 1) * decimal then below else below + 1)
  | true, false => some below
  | false, true => some (below + 1)
  | false, false => none

/-- The number itself as a decimal. -/
def exactDecimal (number : Parts) : Nat × Int :=
  (number.significand * Nat.pow 2 number.exponent.toNat * Nat.pow 5 (-number.exponent).toNat,
   min number.exponent 0)

/-- The first hit from a power of ten downwards. -/
def shortestFrom (number : Parts) : Nat → Int → Nat × Int
  | 0, _ => number.exactDecimal
  | attempts + 1, power =>
    match number.digitsAt? power with
    | some digits => (digits, power)
    | none => number.shortestFrom attempts (power - 1)

/-- Fewest digits that read back, with their power of ten. The search starts above the number,
at an estimate of its logarithm, and needs seventeen digits at most. -/
def shortest (number : Parts) : Nat × Int :=
  let bits : Int := number.significand.log2 + number.exponent + 1
  number.shortestFrom 20 (Int.fdiv (bits * 30103) 100000 + 1)

end Parts

/-- The digits of `digits * 10 ^ power`, with a point where one is needed. -/
def positional (digits : Nat) (power : Int) : String :=
  let shown := Nat.toDigits 10 digits
  let fractionDigits := (-power).toNat
  String.ofList <|
    if fractionDigits = 0 then shown ++ List.replicate power.toNat '0'
    else if fractionDigits < shown.length then
      shown.take (shown.length - fractionDigits) ++ '.' ::
        shown.drop (shown.length - fractionDigits)
    else '0' :: '.' :: List.replicate (fractionDigits - shown.length) '0' ++ shown

def magnitudeText (magnitude : Nat) : String :=
  if magnitude = 0 then "0"
  else if magnitude = infinity then "inf"
  else
    let (digits, power) := (parts magnitude).shortest
    positional digits power

def text (bits : UInt64) : String :=
  if isNaN bits then "NaN"
  else (if isNegative bits then "-" else "") ++ magnitudeText (magnitude bits)

/-- The text, with a point also in a whole number. -/
def textWithPoint (bits : UInt64) : String :=
  let shown := text bits
  if infinity ≤ magnitude bits ∨ shown.toList.contains '.' then shown else shown ++ ".0"

end PauseFlow.Binary64
