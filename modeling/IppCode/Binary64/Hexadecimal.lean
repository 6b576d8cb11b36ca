import IppCode.Binary64.Arithmetic
import IppCode.Text.Numeral
import IppCode.Text.Split

/-!
# Hexadecimal text of binary64 numbers

The written form has a leading digit 0 or 1, thirteen digits after the point and a binary exponent.
The reader accepts any hexadecimal digits, with an optional point, and gathers them digit by digit
in binary64 arithmetic before the exponent is applied.
-/

namespace IppCode.Binary64.Hexadecimal

open Text

/-- The written form, which has its own words for numbers that are not finite. -/
def write (x : Binary64) : List Char :=
  let sign := if x.negative then ['-'] else []
  if x.isNaN then "nan".toList
  else if x.isInfinite then sign ++ "inf".toList
  else if x.isZero then sign ++ "0x0.0p+0".toList
  else
    let (lead, exponent) : Char × Int :=
      if x.biasedExponent = 0 then ('0', -1022) else ('1', (x.biasedExponent : Int) - 1023)
    let exponentSign := if exponent < 0 then '-' else '+'
    sign ++ ['0', 'x', lead, '.'] ++ hexDigits 13 x.fraction ++ ['p', exponentSign] ++
      Nat.toDigits 10 exponent.natAbs

def leastExponent : Int := Int32.minValue.toInt

def greatestExponent : Int := Int32.maxValue.toInt

/-- `2 ^ exponent`, exact for every exponent from -1074 to 1023. -/
def powerOfTwo (exponent : Int) : Binary64 :=
  if 0 ≤ exponent then ofRatio false (Nat.pow 2 exponent.toNat * one) 1
  else ofRatio false one (Nat.pow 2 (-exponent).toNat)

def sixteen : Binary64 := ofInt 16

def sixteenth : Binary64 := powerOfTwo (-4)

/-- Multiply by a power of two so many times. Zero and infinity are left as they are. -/
def repeatScaling (factor : Binary64) : Nat → Binary64 → Binary64
  | 0, x => x
  | times + 1, x =>
    if x.isFinite && !x.isZero then repeatScaling factor times (mul x factor) else x

/-- Multiply a number that is not negative by `2 ^ exponent`. A normal number is first brought
between one and two, and the exponent adjusted within its bounds. Then the power is applied in
pieces that are themselves numbers, so that only the last multiplication can round. -/
def scaleByPowerOfTwo (x : Binary64) (exponent : Int) : Binary64 :=
  let normal := decide (x.biasedExponent ≠ 0) && x.isFinite
  let shift : Int := if normal then (x.biasedExponent : Int) - 1023 else 0
  let x := if normal then mul x (powerOfTwo (-shift)) else x
  let exponent := max leastExponent (min (exponent + shift) greatestExponent)
  if 1023 < exponent then
    let times := (exponent.toNat - 1) / 1023
    mul (repeatScaling (powerOfTwo 1023) times x) (powerOfTwo (exponent - 1023 * times))
  else if exponent < -1022 then
    let times := ((-exponent).toNat - 1) / 1022
    mul (repeatScaling (powerOfTwo (-1022)) times x) (powerOfTwo (exponent + 1022 * times))
  else mul x (powerOfTwo exponent)

/-- The digits before the point, each shifting those before it. -/
def gatherWhole : Binary64 → List Char → Option Binary64
  | value, [] => some value
  | value, c :: rest => do
    let digit ← hexDigitValue? c
    gatherWhole (add (mul value sixteen) (ofInt digit)) rest

/-- The digits after the point. `scale` is the value of a one in the first place. -/
def gatherPlaces : Binary64 → Binary64 → List Char → Option Binary64
  | value, _, [] => some value
  | value, scale, c :: rest => do
    let digit ← hexDigitValue? c
    gatherPlaces (add value (mul (ofInt digit) scale)) (div scale sixteen) rest

/-- The text after `0x` or `0X`, and whether it began so. -/
def stripMark : List Char → Bool × List Char
  | '0' :: 'x' :: rest => (true, rest)
  | '0' :: 'X' :: rest => (true, rest)
  | text => (false, text)

def isExponentMark (c : Char) : Bool := c == 'p' || c == 'P'

/-- An optional sign, the mark `0x`, digits with at most one point, and an exponent after `p`. One
of the mark and the exponent may be missing. -/
def read? (text : List Char) : Option Binary64 := do
  let (negative, body) := splitSign text
  let (marked, body) := stripMark body
  let mantissa := body.takeWhile (!isExponentMark ·)
  let exponent ← match body.dropWhile (!isExponentMark ·) with
    | [] => if marked then some 0 else none
    | _ :: tail => boundedInteger? leastExponent greatestExponent tail
  let (whole, places) := (splitFirst? '.' mantissa).getD (mantissa, [])
  if whole.isEmpty && places.isEmpty then none
  let value ← gatherWhole (zero false) whole
  let value ← gatherPlaces value sixteenth places
  let scaled := scaleByPowerOfTwo value exponent
  return if negative then scaled.neg else scaled

end IppCode.Binary64.Hexadecimal
