import IppCode.Binary64.Basic

/-!
# Arithmetic and order of binary64 numbers

Each operation settles NaNs, infinities and signed zeros, and leaves the rest to one rounding.
-/

namespace IppCode.Binary64

def neg (x : Binary64) : Binary64 := ⟨!x.negative, x.magnitude, x.magnitude_lt⟩

/-- A sum that vanishes is negative only if both summands are. -/
def add (x y : Binary64) : Binary64 :=
  if x.isNaN || y.isNaN then nan
  else if x.isInfinite then if y.isInfinite && x.negative != y.negative then nan else x
  else if y.isInfinite then y
  else
    let sum := x.signedUnits + y.signedUnits
    if sum = 0 then zero (x.negative && y.negative)
    else ofRatio (decide (sum < 0)) sum.natAbs 1

def sub (x y : Binary64) : Binary64 := add x y.neg

def mul (x y : Binary64) : Binary64 :=
  let negative := x.negative != y.negative
  if x.isNaN || y.isNaN then nan
  else if x.isInfinite || y.isInfinite then
    if x.isZero || y.isZero then nan else infinity negative
  else ofRatio negative (x.units * y.units) one

def div (x y : Binary64) : Binary64 :=
  let negative := x.negative != y.negative
  if x.isNaN || y.isNaN then nan
  else if x.isInfinite then if y.isInfinite then nan else infinity negative
  else if y.isInfinite then zero negative
  else if y.isZero then if x.isZero then nan else infinity negative
  else ofRatio negative (x.units * one) y.units

/-- The greatest whole number that is not above. It keeps the sign of a zero. -/
def floor (x : Binary64) : Binary64 :=
  if x.isFinite then ofRatio x.negative ((x.signedUnits / one).natAbs * one) 1 else x

/-- The whole part of a number. It keeps the sign of a zero, and what is not finite. -/
def truncate (x : Binary64) : Binary64 :=
  if x.isFinite then ofRatio x.negative (x.units / one * one) 1 else x

/-- A number that orders all but NaNs, and puts both zeros in one place. -/
def rank (x : Binary64) : Int := if x.negative then -(x.magnitude : Int) else x.magnitude

/-- No order holds for a NaN. -/
def compare? (x y : Binary64) : Option Ordering :=
  if x.isNaN || y.isNaN then none else some (compare x.rank y.rank)

/-- The whole part as an integer. A number beyond the bounds of 64 bits gives the bound, and a NaN
gives zero. -/
def toInt64 (x : Binary64) : Int64 :=
  if x.isNaN then 0
  else if x.isInfinite then if x.negative then Int64.minValue else Int64.maxValue
  else .ofInt (max Int64.minValue.toInt (min (x.signedUnits.tdiv one) Int64.maxValue.toInt))

end IppCode.Binary64
