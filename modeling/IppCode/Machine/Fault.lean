import IppCode.Decoding
import IppCode.Frames
import IppCode.Operators

/-!
# Faults of running programs

What can stop a program, the text that reports it and the status it ends with.
-/

namespace IppCode

/-- What is wrong with the arguments of an instruction. Indices count from zero. -/
inductive ArgumentFault where
  | missing (index : Nat)
  | wrongShape (index : Nat) (expected : Shape) (found : Argument)
  /-- Labels make no table, for another reason than a repeated name. -/
  | undecoded (e : DecodeError)
deriving DecidableEq

inductive Fault where
  | malformed (opcode : Opcode) (fault : ArgumentFault)
  | invalidLiteral (literal : Literal)
  | duplicateLabel (name : String)
  | undefinedLabel (name : String)
  | frame (e : FrameError)
  | badOperand (opcode : Opcode) (value : Value) (accepted : List Kind)
  | operator (opcode : Opcode) (e : OperatorError)
  | emptyCallStack
  | stackUnderflow (opcode : Opcode) (needed depth : Nat)
  | invalidExitCode (code : Int64)
  | io (text : String)
deriving DecidableEq

/-- A fault and the position of the instruction that ran into it, counted from one. -/
structure RuntimeError where
  position : Nat
  fault : Fault
deriving DecidableEq

namespace ArgumentFault

def shapePhrase : Shape → String
  | .var => "a variable"
  | .symbol => "a symbol"
  | .label => "a label"
  | .kind => "a type"

def reason : ArgumentFault → String
  | missing index => s!"missing argument {index + 1}"
  | wrongShape index expected found =>
    s!"argument {index + 1} must be {shapePhrase expected}, found {found.sort}"
  | undecoded e => e.message

end ArgumentFault

namespace Fault

/-- The report of an operator's error names the instruction where several could have caused it. -/
def operatorMessage (opcode : Opcode) : OperatorError → String
  | .divisionByZero => "division by zero"
  | .kindMismatch left right => s!"{opcode.mnemonic} can't compare {left.name} with {right.name}"
  | .invalidCodePoint code => s!"{code.toInt} is not a valid code point"
  | .indexOutOfRange index length =>
    s!"{opcode.mnemonic} index {index.toInt} out of range for length {length}"
  | .emptyReplacement => "SETCHAR with empty replacement string"
  | .notRepresentable x => s!"{opcode.mnemonic} can't convert {(Value.float x).display}"

def frameMessage : FrameError → String
  | .missingFrame scope => s!"frame {scope.name} does not exist"
  | .undefined v => s!"undefined variable {v.display}"
  | .redefined v => s!"variable {v.display} redefined"
  | .uninitialized v => s!"variable {v.display} is uninitialized"

def status : Fault → ExitStatus
  | malformed _ _ | invalidLiteral _ => .malformedProgram
  | duplicateLabel _ | undefinedLabel _ | frame (.redefined _) => .semanticError
  | badOperand _ _ _ | operator _ (.kindMismatch _ _) => .operandType
  | frame (.undefined _) => .undefinedVariable
  | frame (.missingFrame _) => .undefinedFrame
  | frame (.uninitialized _) | emptyCallStack | stackUnderflow _ _ _ => .missingValue
  | operator _ .divisionByZero | operator _ (.notRepresentable _) | invalidExitCode _ =>
    .operandValue
  | operator _ (.invalidCodePoint _) | operator _ (.indexOutOfRange _ _)
  | operator _ .emptyReplacement => .stringOperation
  | io _ => .internalError

end Fault

namespace RuntimeError

def message (e : RuntimeError) : String :=
  let place := s!"at instruction {e.position}"
  match e.fault with
  | .malformed opcode fault => s!"malformed {opcode.mnemonic} {place}: {fault.reason}"
  | .invalidLiteral literal => s!"{literal.complaint} {place}"
  | .duplicateLabel name => s!"label '{name}' redefined {place}"
  | .undefinedLabel name => s!"undefined label '{name}' {place}"
  | .frame e => s!"{Fault.frameMessage e} {place}"
  | .badOperand opcode value accepted =>
    let kinds := String.intercalate ", " (accepted.map Kind.name)
    s!"{opcode.mnemonic} accepts only {kinds} arguments, " ++
      s!"but {value.typed} is of type {value.kind.name} {place}"
  | .operator opcode e => s!"{Fault.operatorMessage opcode e} {place}"
  | .emptyCallStack => s!"RETURN with empty call stack {place}"
  | .stackUnderflow opcode needed depth =>
    s!"{opcode.mnemonic} needs {needed} operand(s) but the stack holds {depth} {place}"
  | .invalidExitCode code => s!"exit code {code.toInt} out of range 0-49 {place}"
  | .io text => s!"I/O error {place}: {text}"

def status (e : RuntimeError) : ExitStatus := e.fault.status

end RuntimeError

end IppCode
