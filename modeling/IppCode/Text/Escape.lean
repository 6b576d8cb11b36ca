import IppCode.Text.Numeral

/-!
# Escaped text

A backslash and three decimal digits stand for the character with that code. Control characters,
the space, `#` and the backslash itself are always written that way.
-/

namespace IppCode.Text.Escape

/-- Characters that cannot stand for themselves. -/
def needed (c : Char) : Bool := decide (c.toNat ≤ 32) || c == '#' || c == '\\'

/-- The three lowest decimal digits of a code. -/
def threeDigits (code : Nat) : List Char :=
  [Nat.digitChar (code / 100 % 10), Nat.digitChar (code / 10 % 10), Nat.digitChar (code % 10)]

def encodeChar (c : Char) : List Char :=
  if needed c then '\\' :: threeDigits c.toNat else [c]

def encode (text : List Char) : List Char := text.flatMap encodeChar

/-- Refuses a backslash without three digits after it. -/
def decode? : List Char → Option (List Char)
  | [] => some []
  | '\\' :: a :: b :: c :: rest => do
    let code ← natural? [a, b, c]
    let decoded ← decode? rest
    return Char.ofNat code :: decoded
  | c :: rest => if c = '\\' then none else (decode? rest).map (c :: ·)

end IppCode.Text.Escape
