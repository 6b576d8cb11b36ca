import IppCode.Machine.Fault

/-!
# Arguments and operands

How an instruction gets at its arguments, and what it accepts as operands. A literal must have a
value before the kind of the value is looked at.
-/

namespace IppCode

namespace Instruction

def argumentAt (i : Instruction) (index : Nat) : Except Fault Argument :=
  match i.arguments[index]? with
  | some argument => .ok argument
  | none => .error (.malformed i.opcode (.missing index))

def variableAt (i : Instruction) (index : Nat) : Except Fault Variable := do
  match ← i.argumentAt index with
  | .var v => .ok v
  | found => .error (.malformed i.opcode (.wrongShape index .var found))

def labelAt (i : Instruction) (index : Nat) : Except Fault String := do
  match ← i.argumentAt index with
  | .label name => .ok name
  | found => .error (.malformed i.opcode (.wrongShape index .label found))

def kindAt (i : Instruction) (index : Nat) : Except Fault Kind := do
  match ← i.argumentAt index with
  | .kind k => .ok k
  | found => .error (.malformed i.opcode (.wrongShape index .kind found))

end Instruction

/-- The value of a literal argument. -/
def convert (literal : Literal) : Except Fault Value :=
  match literal.value? with
  | some value => .ok value
  | none => .error (.invalidLiteral literal)

/-- Accept a value of one of the kinds. -/
def expect (opcode : Opcode) (accepted : List Kind) (value : Value) : Except Fault Unit :=
  if accepted.contains value.kind then .ok () else .error (.badOperand opcode value accepted)

def expectInt (opcode : Opcode) : Value → Except Fault Int64
  | .int n => .ok n
  | value => .error (.badOperand opcode value [.int])

def expectFloat (opcode : Opcode) : Value → Except Fault Binary64
  | .float x => .ok x
  | value => .error (.badOperand opcode value [.float])

def expectString (opcode : Opcode) : Value → Except Fault String
  | .string s => .ok s
  | value => .error (.badOperand opcode value [.string])

namespace Frames

/-- The value of a variable or a literal. -/
def symbol (fs : Frames) (i : Instruction) (index : Nat) : Except Fault Value := do
  match ← i.argumentAt index with
  | .var v => (fs.read v).mapError .frame
  | .literal literal => convert literal
  | found => .error (.malformed i.opcode (.wrongShape index .symbol found))

/-- The value of a symbol, which must be of an accepted kind. -/
def operand (fs : Frames) (i : Instruction) (index : Nat) (accepted : List Kind) :
    Except Fault Value := do
  let value ← fs.symbol i index
  expect i.opcode accepted value
  return value

/-- The name of the kind of a symbol, which is empty for a variable without a value. -/
def kindName (fs : Frames) (i : Instruction) (index : Nat) : Except Fault String := do
  match ← i.argumentAt index with
  | .var v => return match ← (fs.slot v).mapError Fault.frame with
    | some value => value.kind.name
    | none => ""
  | _ => return (← fs.symbol i index).kind.name

end Frames

/-! ## Operators on accepted operands -/

/-- Report an operator's error as one of the instruction. -/
def asFault {α : Type} (opcode : Opcode) (result : Except OperatorError α) : Except Fault α :=
  result.mapError (.operator opcode)

namespace BinaryOp

def leftKinds : BinaryOp → List Kind
  | arithmetic _ => Kind.numeric
  | comparison .eq => Kind.all
  | comparison _ => Kind.ordered
  | logic _ => [.bool]
  | charCode => [.string]

def rightKinds : BinaryOp → List Kind
  | charCode => [.int]
  | op => op.leftKinds

def apply (opcode : Opcode) (op : BinaryOp) (a b : Value) : Except Fault Value :=
  match op with
  | arithmetic op => asFault opcode (op.apply a b)
  | comparison op => (asFault opcode (op.apply a b)).map .bool
  | logic op => (asFault opcode (op.apply a b)).map .bool
  | charCode => do
    let s ← expectString opcode a
    let index ← expectInt opcode b
    (asFault opcode (codeAt s index)).map .int

end BinaryOp

namespace UnaryOp

def kinds : UnaryOp → List Kind
  | not => [.bool]
  | intToChar => [.int]
  | intToFloat => [.int]
  | floatToInt => [.float]

def apply (opcode : Opcode) (op : UnaryOp) (a : Value) : Except Fault Value :=
  match op with
  | not => .ok (.bool (a != .bool true))
  | intToChar => do
    let code ← expectInt opcode a
    (asFault opcode (charOfCode code)).map fun c => .string (String.singleton c)
  | intToFloat => do
    let n ← expectInt opcode a
    return .float (.ofInt n.toInt)
  | floatToInt => do
    let x ← expectFloat opcode a
    (asFault opcode (IppCode.floatToInt x)).map .int

end UnaryOp

end IppCode
