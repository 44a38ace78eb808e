import PauseFlow.Abstract.FloatBits

namespace PauseFlow.Binary64

/-- A quotient to the nearest integer; a half goes to the even neighbour. -/
def roundedQuotient (numerator denominator : Nat) : Nat :=
  let quotient := numerator / denominator
  match compare (2 * (numerator % denominator)) denominator with
  | .lt => quotient
  | .gt => quotient + 1
  | .eq => quotient + quotient % 2

/-- A fraction divided by a power of two. -/
def scaledDown (numerator denominator : Nat) (exponent : Int) : Nat × Nat :=
  (numerator * Nat.pow 2 (-exponent).toNat, denominator * Nat.pow 2 exponent.toNat)

/-- Exponent of the last bit that the nearest number to a fraction has: the significand
takes 53 bits, fewer only at the bottom of the range. -/
def unitExponent (numerator denominator : Nat) : Int :=
  let estimate : Int := (numerator.log2 : Int) - denominator.log2 - 52
  let (top, bottom) := scaledDown numerator denominator estimate
  max (if top < bottom * Nat.pow 2 52 then estimate - 1 else estimate) (-1074)

/-- Magnitude of the number nearest to a fraction. A significand that rounds up to the next
power of two carries into the exponent, which is the right pattern. -/
def nearestToFraction (numerator denominator : Nat) : Nat :=
  let exponent := unitExponent numerator denominator
  let (top, bottom) := scaledDown numerator denominator exponent
  min infinity ((exponent + 1074).toNat * Nat.pow 2 52 + roundedQuotient top bottom)

/-- Magnitude of the number nearest to `digits * 10 ^ exponent`. Far outside the range the
power is not computed; `digits` has at most `log2 digits + 1` digits. -/
def nearestToDecimal (digits : Nat) (exponent : Int) : Nat :=
  if digits = 0 then 0
  else if 400 < exponent then infinity
  else if exponent + digits.log2 < -400 then 0
  else nearestToFraction (digits * Nat.pow 10 exponent.toNat) (Nat.pow 10 (-exponent).toNat)

def withSign (negative : Bool) (magnitude : Nat) : UInt64 :=
  UInt64.ofNat ((if negative then Nat.pow 2 63 else 0) + magnitude)

def isNegative (bits : UInt64) : Bool := Nat.pow 2 63 ≤ bits.toNat

end PauseFlow.Binary64
