/-!
# Binary64 numbers

The 64-bit binary floating-point numbers of IEEE 754. A finite number is a whole number of units,
where a unit is the least positive subnormal, `2 ^ -1074`. Every operation computes its exact
result as a ratio of units and rounds once, to nearest with ties to even.
-/

namespace IppCode

def Binary64.signBit : Nat := 0x8000000000000000

/-- A sign bit, and the remaining 63 bits: eleven of exponent, then 52 of fraction. -/
structure Binary64 where
  negative : Bool
  magnitude : Nat
  magnitude_lt : magnitude < Binary64.signBit
deriving DecidableEq

namespace Binary64

/-- The lowest exponent bit, which is also the leading bit of a normal significand. -/
def leadingBit : Nat := 0x10000000000000

/-- The magnitude of the infinities. Those above belong to NaNs, those below to finite numbers. -/
def infinityMagnitude : Nat := 0x7FF0000000000000

def one : Nat := Nat.pow 2 1074

def ofBits (bits : UInt64) : Binary64 :=
  ⟨decide (signBit ≤ bits.toNat), bits.toNat % signBit, Nat.mod_lt _ (by decide)⟩

def toBits (x : Binary64) : UInt64 :=
  UInt64.ofNat ((if x.negative then signBit else 0) + x.magnitude)

/-- The NaN that operations give. -/
def nan : Binary64 := ⟨false, 0x7FF8000000000000, by decide⟩

def infinity (negative : Bool) : Binary64 := ⟨negative, infinityMagnitude, by decide⟩

def zero (negative : Bool) : Binary64 := ⟨negative, 0, by decide⟩

def isNaN (x : Binary64) : Bool := decide (infinityMagnitude < x.magnitude)

def isInfinite (x : Binary64) : Bool := x.magnitude == infinityMagnitude

def isFinite (x : Binary64) : Bool := decide (x.magnitude < infinityMagnitude)

def isZero (x : Binary64) : Bool := x.magnitude == 0

def biasedExponent (x : Binary64) : Nat := x.magnitude / leadingBit

def fraction (x : Binary64) : Nat := x.magnitude % leadingBit

/-- The absolute value of a finite number, in units. A normal number has a leading bit that is not
stored. -/
def units (x : Binary64) : Nat :=
  if x.biasedExponent = 0 then x.fraction
  else (leadingBit + x.fraction) * Nat.pow 2 (x.biasedExponent - 1)

/-- The value of a finite number, in units. -/
def signedUnits (x : Binary64) : Int := if x.negative then -(x.units : Int) else x.units

/-- A quotient of whole numbers rounded to the nearest whole number, a tie to the even one. -/
def roundQuotient (numerator denominator : Nat) : Nat :=
  let quotient := numerator / denominator
  let remainder := numerator % denominator
  if 2 * remainder < denominator then quotient
  else if denominator < 2 * remainder then quotient + 1
  else quotient + quotient % 2

/-- The magnitude nearest to `numerator / denominator` units. Shifted so that the significand has
53 bits, or fewer below the normal range, the rounded significand carries into the exponent bits by
itself. -/
def nearestMagnitude (numerator denominator : Nat) : Nat :=
  let shift := Nat.log2 (numerator / denominator) - 52
  min (shift * leadingBit + roundQuotient numerator (denominator * Nat.pow 2 shift))
    infinityMagnitude

/-- The number nearest to `numerator / denominator` units, with the given sign. -/
def ofRatio (negative : Bool) (numerator denominator : Nat) : Binary64 :=
  ⟨negative, nearestMagnitude numerator denominator,
    Nat.lt_of_le_of_lt (Nat.min_le_right _ _) (by decide)⟩

/-- The number nearest to a whole number. Zero is positive. -/
def ofInt (n : Int) : Binary64 := ofRatio (decide (n < 0)) (n.natAbs * one) 1

end Binary64

end IppCode
