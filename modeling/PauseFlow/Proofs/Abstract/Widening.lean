import PauseFlow.Proofs.Abstract.Meaning

/-! Numbers of the two floating-point kinds as bit patterns. Widening a pattern to 64 bits keeps
which patterns are NaNs, zeros or equal numbers, so the comparison after widening is the numeric
one of the narrower kind. -/
namespace PauseFlow

theorem Binary64.isNaN_eq_false_of_isZero {bits : UInt64} (isZero : isZero bits = true) :
    isNaN bits = false := by
  have zero : magnitude bits = 0 := of_decide_eq_true isZero
  rw [isNaN, zero]
  rfl

namespace Binary32

/-- How the fields of a magnitude in 32 bits and of the same magnitude in 64 bits go together. The
leading one of a subnormal number moves into the hidden place. -/
inductive Widens : (exponent fraction high low : Nat) → Prop where
  | zero : Widens 0 0 0 0
  | subnormal {leading rest : Nat} (place : leading < 23) (below : rest < 2 ^ leading) :
      Widens 0 (2 ^ leading + rest) (leading + 874) (rest * 2 ^ (52 - leading))
  | normal {exponent fraction : Nat} (positive : 0 < exponent) (finite : exponent < 255)
      (below : fraction < 2 ^ 23) : Widens exponent fraction (exponent + 896) (fraction * 2 ^ 29)
  | infinity : Widens 255 0 2047 0
  | nan {fraction payload : Nat} (marked : 0 < fraction) (present : 0 < payload)
      (below : payload < 2 ^ 52) : Widens 255 fraction 2047 payload

namespace Widens

variable {exponent fraction otherExponent otherFraction high low : Nat}

private theorem bounds (widens : Widens exponent fraction high low) : high ≤ 2047 ∧ low < 2 ^ 52 :=
    by
  cases widens with
  | zero => decide
  | infinity => decide
  | nan _ _ below => exact ⟨le_rfl, below⟩
  | normal _ finite below => omega
  | @subnormal leading rest place below =>
    have whole : 2 ^ leading * 2 ^ (52 - leading) = 2 ^ 52 := by
      rw [← pow_add]
      congr 1
      omega
    refine ⟨by omega, ?_⟩
    rw [← whole]
    exact Nat.mul_lt_mul_of_pos_right below (Nat.two_pow_pos _)

private theorem isNaN_iff (widens : Widens exponent fraction high low) :
    2047 * 2 ^ 52 < high * 2 ^ 52 + low ↔ 255 * 2 ^ 23 < exponent * 2 ^ 23 + fraction := by
  have fits := widens.bounds.2
  cases widens with
  | zero => omega
  | infinity => omega
  | nan marked present _ => omega
  | normal _ finite below => omega
  | @subnormal leading rest place below =>
    have top : 2 ^ leading ≤ 2 ^ 22 := Nat.pow_le_pow_right (by decide) (by omega)
    omega

private theorem isZero_iff (widens : Widens exponent fraction high low) :
    high * 2 ^ 52 + low = 0 ↔ exponent * 2 ^ 23 + fraction = 0 := by
  cases widens with
  | zero => omega
  | infinity => omega
  | nan => omega
  | normal positive => omega
  | @subnormal leading rest place below =>
    have present := Nat.two_pow_pos leading
    omega

/-- The fields of a number that is no NaN can be read back. -/
theorem inj (widens : Widens exponent fraction high low)
    (other : Widens otherExponent otherFraction high low)
    (number : ¬ 255 * 2 ^ 23 < exponent * 2 ^ 23 + fraction) :
    exponent = otherExponent ∧ fraction = otherFraction := by
  -- Fields of `other` are compared as numbers, so they must not be fixed by its constructor yet.
  generalize sameHigh : high = upper at other
  generalize sameLow : low = lower at other
  cases widens with
  | zero => cases other <;> omega
  | infinity => cases other <;> omega
  | nan => omega
  | normal => cases other <;> omega
  | @subnormal leading rest place below =>
    cases other with
    | zero => omega
    | infinity => omega
    | nan => omega
    | normal => omega
    | @subnormal otherLeading otherRest otherPlace otherBelow =>
      obtain rfl : leading = otherLeading := by omega
      have same : rest = otherRest := Nat.eq_of_mul_eq_mul_right (Nat.two_pow_pos _) sameLow
      rw [same]
      exact ⟨rfl, rfl⟩

end Widens

/-- The magnitude of every pattern is widened field by field. -/
theorem exists_widens {exponent fraction : Nat} (exponentBound : exponent < 2 ^ 8)
    (fractionBound : fraction < 2 ^ 23) :
    ∃ high low, Widens exponent fraction high low ∧
      widenedMagnitude exponent fraction = high * 2 ^ 52 + low := by
  unfold widenedMagnitude
  simp only [Nat.pow_eq]
  split
  case isTrue top =>
    subst top
    by_cases whole : fraction = 0
    · subst whole
      exact ⟨2047, 0, .infinity, rfl⟩
    · have present : 0 < fraction * 2 ^ 29 ||| 2 ^ 51 :=
        lt_of_lt_of_le (by decide) Nat.right_le_or
      have below : fraction * 2 ^ 29 ||| 2 ^ 51 < 2 ^ 52 :=
        Nat.or_lt_two_pow (by omega) (by decide)
      refine ⟨2047, _, .nan (Nat.pos_of_ne_zero whole) present below, ?_⟩
      rw [if_neg whole]
      rfl
  case isFalse finite =>
    split
    case isFalse positive =>
      exact ⟨_, _, .normal (Nat.pos_of_ne_zero positive) (by omega) fractionBound, rfl⟩
    case isTrue bottom =>
      subst bottom
      by_cases whole : fraction = 0
      · subst whole
        exact ⟨0, 0, .zero, rfl⟩
      · rw [if_neg whole]
        have least := Nat.log2_self_le whole
        have most : fraction < 2 ^ (Nat.log2 fraction + 1) := Nat.lt_log2_self
        have place : Nat.log2 fraction < 23 := (Nat.log2_lt whole).mpr fractionBound
        generalize Nat.log2 fraction = leading at *
        obtain ⟨rest, rfl⟩ := Nat.exists_eq_add_of_le least
        rw [pow_succ] at most
        refine ⟨_, _, .subnormal place (by omega), ?_⟩
        rw [Nat.add_sub_cancel_left]

private theorem toNat_eq_fields (bits : UInt32) :
    bits.toNat = sign bits * 2 ^ 31 + (exponent bits * 2 ^ 23 + fraction bits) := by
  simp only [sign, exponent, fraction, Nat.pow_eq]
  omega

private theorem field_bounds (bits : UInt32) :
    sign bits < 2 ∧ exponent bits < 2 ^ 8 ∧ fraction bits < 2 ^ 23 := by
  have bound := bits.toNat_lt
  simp only [sign, exponent, fraction, Nat.pow_eq]
  omega

/-- A widened pattern has the sign of the pattern and the fields of its widened magnitude. -/
theorem exists_widen (bits : UInt32) :
    ∃ high low, Widens (exponent bits) (fraction bits) high low ∧
      (widen bits).toNat = sign bits * 2 ^ 63 + (high * 2 ^ 52 + low) := by
  obtain ⟨signBound, exponentBound, fractionBound⟩ := field_bounds bits
  obtain ⟨high, low, widens, magnitude⟩ := exists_widens exponentBound fractionBound
  have bounds := widens.bounds
  refine ⟨high, low, widens, ?_⟩
  rw [widen, magnitude, Nat.pow_eq]
  exact UInt64.toNat_ofNat_of_lt (by rw [UInt64.size]; omega)

variable {left right : UInt32}

private theorem magnitude_of_toNat {bits : UInt64} {sign high low : Nat}
    (fits : high ≤ 2047 ∧ low < 2 ^ 52)
    (same : bits.toNat = sign * 2 ^ 63 + (high * 2 ^ 52 + low)) :
    Binary64.magnitude bits = high * 2 ^ 52 + low := by
  rw [Binary64.magnitude, same, Nat.pow_eq]
  omega

private theorem isNaN_widen_iff (bits : UInt32) :
    Binary64.isNaN (widen bits) = true ↔ 255 * 2 ^ 23 < exponent bits * 2 ^ 23 + fraction bits := by
  obtain ⟨high, low, widens, same⟩ := exists_widen bits
  have infinite : Binary64.infinity = 2047 * 2 ^ 52 := by decide
  rw [Binary64.isNaN, magnitude_of_toNat widens.bounds same, decide_eq_true_iff, infinite]
  exact widens.isNaN_iff

private theorem isZero_widen_iff (bits : UInt32) :
    Binary64.isZero (widen bits) = true ↔ exponent bits * 2 ^ 23 + fraction bits = 0 := by
  obtain ⟨high, low, widens, same⟩ := exists_widen bits
  rw [Binary64.isZero, magnitude_of_toNat widens.bounds same, decide_eq_true_iff]
  exact widens.isZero_iff

/-- Only NaNs can become the same pattern. -/
theorem widen_inj (same : widen left = widen right) (number : Binary64.isNaN (widen left) = false) :
    left = right := by
  obtain ⟨high, low, widens, leftSame⟩ := exists_widen left
  obtain ⟨otherHigh, otherLow, otherWidens, rightSame⟩ := exists_widen right
  have bounds := widens.bounds
  have otherBounds := otherWidens.bounds
  have leftSign := (field_bounds left).1
  have rightSign := (field_bounds right).1
  rw [same, rightSame] at leftSame
  obtain rfl : high = otherHigh := by omega
  obtain rfl : low = otherLow := by omega
  have sameSign : sign left = sign right := by omega
  have plain := Bool.eq_false_iff.mp number
  rw [Ne, isNaN_widen_iff] at plain
  obtain ⟨sameExponent, sameFraction⟩ := widens.inj otherWidens plain
  apply UInt32.toNat_inj.mp
  rw [toNat_eq_fields left, toNat_eq_fields right, sameSign, sameExponent, sameFraction]

end Binary32

namespace PrimitiveKind

/-- Position of the sign. -/
def signPosition : PrimitiveKind → Nat
  | .float => 31
  | _ => 63

/-- Pattern of positive infinity. -/
def infinity : PrimitiveKind → Nat
  | .float => 255 * 2 ^ 23
  | _ => 2047 * 2 ^ 52

/-- A pattern of the kind without its sign. -/
def magnitude (kind : PrimitiveKind) (bits : UInt64) : Nat := bits.toNat % 2 ^ kind.signPosition

def IsNaN (kind : PrimitiveKind) (bits : UInt64) : Prop := kind.infinity < kind.magnitude bits

def IsZero (kind : PrimitiveKind) (bits : UInt64) : Prop := kind.magnitude bits = 0

instance (kind : PrimitiveKind) (bits : UInt64) : Decidable (kind.IsNaN bits) :=
  inferInstanceAs (Decidable (_ < _))

instance (kind : PrimitiveKind) (bits : UInt64) : Decidable (kind.IsZero bits) :=
  inferInstanceAs (Decidable (_ = _))

/-- Equality of numbers of the kind: a NaN equals nothing, and the two zeros are equal. -/
def NumericallyEqual (kind : PrimitiveKind) (left right : UInt64) : Prop :=
  ¬ kind.IsNaN left ∧ ¬ kind.IsNaN right ∧ (left = right ∨ kind.IsZero left ∧ kind.IsZero right)

instance (kind : PrimitiveKind) (left right : UInt64) :
    Decidable (kind.NumericallyEqual left right) :=
  inferInstanceAs (Decidable (_ ∧ _ ∧ _))

/-- The kind is a floating-point kind and the bits are one of its patterns. -/
def HasPattern (kind : PrimitiveKind) (bits : UInt64) : Prop := kind.admits (.floating bits) = true

/-- The pattern of the same number in 64 bits. -/
def widen : PrimitiveKind → UInt64 → UInt64
  | .float, bits => Binary32.widen bits.toUInt32
  | _, bits => bits

variable {kind : PrimitiveKind} {bits left right : UInt64}

private theorem hasPattern_float : HasPattern .float bits ↔ bits.toNat < 2 ^ 32 :=
    decide_eq_true_iff

private theorem HasPattern.cases (has : kind.HasPattern bits) :
    kind = .float ∧ bits.toNat < 2 ^ 32 ∨ kind = .double := by
  cases kind <;> first
    | exact .inl ⟨rfl, hasPattern_float.mp has⟩
    | exact .inr rfl
    | cases has

theorem HasPattern.isFloating (has : kind.HasPattern bits) : kind.isFloating = true := by
  rcases has.cases with ⟨rfl, _⟩ | rfl <;> rfl

private theorem toNat_toUInt32 (small : bits.toNat < 2 ^ 32) : bits.toUInt32.toNat = bits.toNat :=
    by
  rw [UInt64.toNat_toUInt32]
  exact Nat.mod_eq_of_lt small

private theorem magnitude_float (small : bits.toNat < 2 ^ 32) :
    magnitude .float bits =
      Binary32.exponent bits.toUInt32 * 2 ^ 23 + Binary32.fraction bits.toUInt32 := by
  have fields := Binary32.toNat_eq_fields bits.toUInt32
  have bounds := Binary32.field_bounds bits.toUInt32
  rw [toNat_toUInt32 small] at fields
  simp only [magnitude, signPosition]
  omega

theorem isNaN_widen_iff (has : kind.HasPattern bits) :
    Binary64.isNaN (kind.widen bits) = true ↔ kind.IsNaN bits := by
  rcases has.cases with ⟨rfl, small⟩ | rfl
  · rw [widen, Binary32.isNaN_widen_iff, IsNaN, magnitude_float small, infinity]
  · exact decide_eq_true_iff

theorem isZero_widen_iff (has : kind.HasPattern bits) :
    Binary64.isZero (kind.widen bits) = true ↔ kind.IsZero bits := by
  rcases has.cases with ⟨rfl, small⟩ | rfl
  · rw [widen, Binary32.isZero_widen_iff, IsZero, magnitude_float small]
  · exact decide_eq_true_iff

theorem widen_inj (hasLeft : kind.HasPattern left) (hasRight : kind.HasPattern right)
    (number : ¬ kind.IsNaN left) (same : kind.widen left = kind.widen right) : left = right := by
  rw [← isNaN_widen_iff hasLeft, Bool.not_eq_true] at number
  rcases hasLeft.cases with ⟨rfl, leftSmall⟩ | rfl
  · have rightSmall := hasPattern_float.mp hasRight
    have narrow := congrArg UInt32.toNat (Binary32.widen_inj same number)
    rw [toNat_toUInt32 leftSmall, toNat_toUInt32 rightSmall] at narrow
    exact UInt64.toNat_inj.mp narrow
  · exact same

/-- Two numbers of one kind are compared as such, although they are widened first. -/
theorem numericallyEqual_widen_iff (hasLeft : kind.HasPattern left)
    (hasRight : kind.HasPattern right) :
    Binary64.numericallyEqual (kind.widen left) (kind.widen right) = true ↔
      kind.NumericallyEqual left right := by
  simp only [Binary64.numericallyEqual, Bool.and_eq_true, Bool.or_eq_true, Bool.not_eq_true',
    decide_eq_true_eq, isZero_widen_iff hasLeft, isZero_widen_iff hasRight, NumericallyEqual,
    ← isNaN_widen_iff hasLeft, ← isNaN_widen_iff hasRight, Bool.not_eq_true, and_assoc]
  refine and_congr_right fun number => and_congr_right fun _ => or_congr_left ?_
  refine ⟨widen_inj hasLeft hasRight ?_, congrArg _⟩
  rwa [← isNaN_widen_iff hasLeft, Bool.not_eq_true]

end PrimitiveKind

namespace AbstractValue

/-- A floating-point value known by its bits. -/
def pattern (kind : PrimitiveKind) (bits : UInt64) : AbstractValue :=
  primitive kind (some (.floating bits))

variable {kind : PrimitiveKind} {bits : UInt64}

theorem floatingConstant_pattern (has : kind.HasPattern bits) :
    (pattern kind bits).floatingConstant = some (kind.widen bits) := by
  rcases has.cases with ⟨rfl, small⟩ | rfl
  · exact if_pos small
  · rfl

/-- Only patterns of the kind count as known numbers. -/
theorem pattern_of_floatingConstant {content : Option PrimitiveValue} {number : UInt64}
    (known : (primitive kind content).floatingConstant = some number) :
    ∃ bits, content = some (.floating bits) ∧ kind.HasPattern bits ∧ number = kind.widen bits := by
  unfold floatingConstant at known
  split at known
  · rename_i bits same
    cases same
    split at known
    · rename_i small
      exact ⟨bits, rfl, PrimitiveKind.hasPattern_float.mpr small, (Option.some.inj known).symm⟩
    · cases known
  · rename_i bits same
    cases same
    exact ⟨bits, rfl, rfl, (Option.some.inj known).symm⟩
  · cases known

/-- An unknown number is narrowed to bits of its kind. -/
theorem meet_unknown_pattern (table : ClassTable) (kind other : PrimitiveKind) (bits : UInt64) :
    (primitive kind none).meet table (pattern other bits) =
      if kind = other then pattern kind bits else .bottom := by
  by_cases same : kind = other
  · subst same
    simp [meet, pattern]
  · simp [meet, pattern, same]

end AbstractValue

end PauseFlow
