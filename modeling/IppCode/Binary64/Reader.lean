import IppCode.Binary64.Decimal
import IppCode.Binary64.Hexadecimal
import IppCode.Text.Blank

/-!
# Text of binary64 numbers

Blanks around a number do not count, and what is not decimal may be hexadecimal.
-/

namespace IppCode.Binary64

def read? (text : List Char) : Option Binary64 :=
  let text := Text.trim text
  (Decimal.read? text).orElse fun _ => Hexadecimal.read? text

end IppCode.Binary64
