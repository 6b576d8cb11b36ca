import IppCode.Binary64.Basic
import IppCode.Text.Numeral

/-!
# Decimal text of binary64 numbers

An optional sign, then `inf`, `infinity` or `nan` in any case, or digits with at most one point
among them and an optional exponent. The result is the number nearest to the exact value.
-/

namespace IppCode.Binary64.Decimal

open Text

def special? (negative : Bool) (text : List Char) : Option Binary64 :=
  let word := String.ofList (text.map Char.toLower)
  if word = "inf" ∨ word = "infinity" then some (infinity negative)
  else if word = "nan" then some nan
  else none

/-- The exponent after `e` or `E`. Digits are no longer read once they exceed 65535, which leaves
the exponent beyond any that such a text could need. -/
def exponent? (text : List Char) : Option Int :=
  let (negative, digits) := splitSign text
  if digits.isEmpty || !digits.all Char.isDigit then none
  else
    let value := digits.foldl (fun n c => if n < 65536 then 10 * n + digitValue c else n) 0
    some (if negative then -(value : Int) else value)

/-- The number nearest to `coefficient * 10 ^ exponent`, where the coefficient has at most `width`
digits. Exponents outside the range of the type need no arithmetic. -/
def scale (negative : Bool) (coefficient width : Nat) (exponent : Int) : Binary64 :=
  if coefficient = 0 then zero negative
  else if 400 < exponent then infinity negative
  else if exponent + width < -400 then zero negative
  else if 0 ≤ exponent then ofRatio negative (coefficient * Nat.pow 10 exponent.toNat * one) 1
  else ofRatio negative (coefficient * one) (Nat.pow 10 (-exponent).toNat)

/-- A number without sign: digits, a point among them at most, and an exponent. -/
def unsigned? (negative : Bool) (text : List Char) : Option Binary64 := do
  let whole := text.takeWhile Char.isDigit
  let rest := text.dropWhile Char.isDigit
  let (places, rest) := match rest with
    | '.' :: tail => (tail.takeWhile Char.isDigit, tail.dropWhile Char.isDigit)
    | _ => ([], rest)
  let digits := whole ++ places
  if digits.isEmpty then none
  let exponent ← match rest with
    | [] => some 0
    | c :: tail => if c = 'e' ∨ c = 'E' then exponent? tail else none
  return scale negative (decimalValue digits) digits.length (exponent - places.length)

def read? (text : List Char) : Option Binary64 :=
  let (negative, body) := splitSign text
  (special? negative body).orElse fun _ => unsigned? negative body

end IppCode.Binary64.Decimal
