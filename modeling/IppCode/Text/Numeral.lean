/-!
# Numerals

Digits, signs and whole numbers in decimal notation. Only the ASCII digits count.
-/

namespace IppCode.Text

/-- A sign in front of a numeral, and what follows it. No sign means plus. -/
def splitSign : List Char → Bool × List Char
  | '-' :: rest => (true, rest)
  | '+' :: rest => (false, rest)
  | text => (false, text)

def digitValue (c : Char) : Nat := c.toNat - '0'.toNat

def decimalValue (digits : List Char) : Nat :=
  digits.foldl (fun value c => 10 * value + digitValue c) 0

/-- A number without sign: one or more digits. -/
def natural? (text : List Char) : Option Nat :=
  if !text.isEmpty && text.all Char.isDigit then some (decimalValue text) else none

def integer? (text : List Char) : Option Int :=
  let (negative, digits) := splitSign text
  (natural? digits).map fun n => if negative then -(n : Int) else n

/-- A number with an optional sign that lies between the bounds. -/
def boundedInteger? (least greatest : Int) (text : List Char) : Option Int :=
  (integer? text).filter fun n => least ≤ n ∧ n ≤ greatest

/-- The value of a hexadecimal digit, in either case. -/
def hexDigitValue? (c : Char) : Option Nat :=
  if c.isDigit then some (c.toNat - '0'.toNat)
  else if 'a' ≤ c ∧ c ≤ 'f' then some (c.toNat - 'a'.toNat + 10)
  else if 'A' ≤ c ∧ c ≤ 'F' then some (c.toNat - 'A'.toNat + 10)
  else none

/-- The last `width` hexadecimal digits of a number, the highest first. -/
def hexDigits : Nat → Nat → List Char
  | 0, _ => []
  | width + 1, n => hexDigits width (n / 16) ++ [Nat.digitChar (n % 16)]

end IppCode.Text
