/-! Floating-point values as bit patterns in the binary interchange formats. Facts
record patterns; a comparison in the program is numeric, so `-0.0` equals `0.0` and a
NaN equals nothing. -/
namespace PauseFlow

namespace Binary64

/-- Pattern of positive infinity; greater magnitudes are NaNs. -/
def infinity : Nat := 0x7FF0000000000000

/-- The pattern without its sign. -/
def magnitude (bits : UInt64) : Nat := bits.toNat % Nat.pow 2 63

def isNaN (bits : UInt64) : Bool := infinity < magnitude bits

def isZero (bits : UInt64) : Bool := magnitude bits = 0

/-- Equality as the program sees it. -/
def numericallyEqual (left right : UInt64) : Bool :=
  !isNaN left && !isNaN right && (left = right || (isZero left && isZero right))

end Binary64

namespace Binary32

def sign (bits : UInt32) : Nat := bits.toNat / Nat.pow 2 31

def exponent (bits : UInt32) : Nat := bits.toNat / Nat.pow 2 23 % Nat.pow 2 8

def fraction (bits : UInt32) : Nat := bits.toNat % Nat.pow 2 23

/-- Exponent and fraction of the same number in 64 bits. Subnormal numbers become normal:
the leading one of the fraction moves into the hidden place. A NaN becomes quiet. -/
def widenedMagnitude (exponent fraction : Nat) : Nat :=
  if exponent = 255 then
    Binary64.infinity + (if fraction = 0 then 0 else (fraction * Nat.pow 2 29) ||| Nat.pow 2 51)
  else if exponent = 0 then
    if fraction = 0 then 0
    else
      let leading := Nat.log2 fraction
      (leading + 874) * Nat.pow 2 52 + (fraction - Nat.pow 2 leading) * Nat.pow 2 (52 - leading)
  else (exponent + 896) * Nat.pow 2 52 + fraction * Nat.pow 2 29

/-- The same number in 64 bits. -/
def widen (bits : UInt32) : UInt64 :=
  UInt64.ofNat (sign bits * Nat.pow 2 63 + widenedMagnitude (exponent bits) (fraction bits))

end Binary32

end PauseFlow
