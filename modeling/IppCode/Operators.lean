import IppCode.Opcode
import IppCode.Text.Encoding
import IppCode.Value

/-!
# Operators

What the operators compute from the values of their operands. Integers wrap at 64 bits, an integer
beside a float is converted to one, and characters of a string are counted by code points.
-/

namespace IppCode

inductive OperatorError where
  | divisionByZero
  | kindMismatch (left right : Kind)
  | invalidCodePoint (code : Int64)
  | indexOutOfRange (index : Int64) (length : Nat)
  | emptyReplacement
  | notRepresentable (x : Binary64)
deriving DecidableEq

def OperatorError.message : OperatorError → String
  | divisionByZero => "division by zero"
  | kindMismatch left right => s!"can't combine {left.name} with {right.name}"
  | invalidCodePoint code => s!"{code.toInt} is not a valid code point"
  | indexOutOfRange index length => s!"index {index.toInt} out of range for length {length}"
  | emptyReplacement => "empty replacement string"
  | notRepresentable x => s!"{(Value.float x).display} has no integer value"

/-- The quotient rounded toward negative infinity. -/
def floorDiv (a b : Int64) : Int64 :=
  let quotient := a / b
  if a % b ≠ 0 ∧ (a < 0 ↔ ¬ b < 0) then quotient - 1 else quotient

namespace ArithmeticOp

def onInts (op : ArithmeticOp) (x y : Int64) : Except OperatorError Value :=
  match op with
  | add => .ok (.int (x + y))
  | sub => .ok (.int (x - y))
  | mul => .ok (.int (x * y))
  | idiv => if y = 0 then .error .divisionByZero else .ok (.int (floorDiv x y))
  | div =>
    if y = 0 then .error .divisionByZero
    else .ok (.float ((Binary64.ofInt x.toInt).div (.ofInt y.toInt)))

def onFloats (op : ArithmeticOp) (x y : Binary64) : Except OperatorError Binary64 :=
  match op with
  | add => .ok (x.add y)
  | sub => .ok (x.sub y)
  | mul => .ok (x.mul y)
  | idiv => if y.isZero then .error .divisionByZero else .ok (x.div y).floor
  | div => if y.isZero then .error .divisionByZero else .ok (x.div y)

/-- Two integers stay integers, except under `div`. -/
def apply (op : ArithmeticOp) (a b : Value) : Except OperatorError Value :=
  match a, b with
  | .int x, .int y => op.onInts x y
  | a, b =>
    match a.asFloat?, b.asFloat? with
    | some x, some y => (op.onFloats x y).map .float
    | _, _ => .error (.kindMismatch a.kind b.kind)

end ArithmeticOp

/-- Strings are ordered as their encodings are. -/
def compareStrings (s t : String) : Ordering :=
  if Text.precedes s t then .lt else if Text.precedes t s then .gt else .eq

/-- The order of two values of one kind. A NaN stands in no order, and nil has none. -/
def Value.compare? (a b : Value) : Except OperatorError (Option Ordering) :=
  match a, b with
  | .int x, .int y => .ok (some (compare x.toInt y.toInt))
  | .float x, .float y => .ok (x.compare? y)
  | .bool x, .bool y => .ok (some (compare x.toNat y.toNat))
  | .string s, .string t => .ok (some (compareStrings s t))
  | a, b => .error (.kindMismatch a.kind b.kind)

namespace ComparisonOp

def holds (op : ComparisonOp) : Option Ordering → Bool
  | none => false
  | some order =>
    match op with
    | lt => order.isLT
    | gt => order.isGT
    | eq => order.isEq

/-- Nil is equal to nil and to nothing else. -/
def apply (op : ComparisonOp) (a b : Value) : Except OperatorError Bool :=
  match op, a, b with
  | eq, .nil, .nil => .ok true
  | eq, .nil, _ => .ok false
  | eq, _, .nil => .ok false
  | op, a, b => (a.compare? b).map op.holds

end ComparisonOp

def LogicOp.apply (op : LogicOp) (a b : Value) : Except OperatorError Bool :=
  match a, b with
  | .bool x, .bool y =>
    match op with
    | and => .ok (x && y)
    | or => .ok (x || y)
  | a, b => .error (.kindMismatch a.kind b.kind)

/-! ## Characters -/

/-- The character with a code, which is a Unicode scalar value. -/
def charOfCode (code : Int64) : Except OperatorError Char :=
  if 0 ≤ code.toInt ∧ code.toInt.toNat.isValidChar then .ok (Char.ofNat code.toInt.toNat)
  else .error (.invalidCodePoint code)

/-- An index as a position in a sequence of the given length. -/
def position (length : Nat) (index : Int64) : Except OperatorError (Fin length) :=
  if h : 0 ≤ index.toInt ∧ index.toInt < length then .ok ⟨index.toInt.toNat, by omega⟩
  else .error (.indexOutOfRange index length)

def charAt (s : String) (index : Int64) : Except OperatorError Char :=
  (position s.toList.length index).map s.toList.get

def codeAt (s : String) (index : Int64) : Except OperatorError Int64 :=
  (charAt s index).map fun c => .ofNat c.toNat

/-- The string with the character at an index replaced by the first one of another string. -/
def setChar (s : String) (index : Int64) (replacement : String) : Except OperatorError String := do
  let i ← position s.toList.length index
  match replacement.toList with
  | [] => .error .emptyReplacement
  | c :: _ => return String.ofList (s.toList.set i c)

/-- The whole part of a float, if it is not beyond the bounds of 64 bits. The bounds are converted to
floats. The greatest integer is none itself and becomes the next one above, which is excluded. -/
def floatToInt (x : Binary64) : Except OperatorError Int64 :=
  let whole := x.truncate
  let least := Binary64.ofInt Int64.minValue.toInt
  let greatest := Binary64.ofInt Int64.maxValue.toInt
  if !whole.isFinite || (whole.compare? least).any Ordering.isLT ||
    (whole.compare? greatest).any Ordering.isGE then .error (.notRepresentable x)
  else .ok whole.toInt64

end IppCode
