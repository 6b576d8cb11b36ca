import IppCode.ExitStatus
import IppCode.Opcode

/-!
# Faults of source texts
-/

namespace IppCode.Source

/-- Why a line is not part of a program. -/
inductive Fault where
  | missingHeader
  | unknownOpcode (word : String)
  | missingArgument (opcode : Opcode)
  | unexpectedWord (word : String)
  | invalidArgument (expected : Shape) (word : String)
deriving DecidableEq

/-- A fault and the line it is in, counted from one. -/
structure LoadError where
  line : Nat
  fault : Fault
deriving DecidableEq

def Fault.message : Fault → String
  | missingHeader => "missing or invalid .IPPcode22 header"
  | unknownOpcode word => s!"unknown opcode '{word}'"
  | missingArgument opcode =>
    s!"{opcode.mnemonic} expects {opcode.signature.length} argument(s)"
  | unexpectedWord word => s!"unexpected token '{word}'"
  | invalidArgument expected word => s!"expected {expected.name}, found '{word}'"

namespace LoadError

def message (e : LoadError) : String := s!"line {e.line}: {e.fault.message}"

def status (_ : LoadError) : ExitStatus := .malformedProgram

end LoadError

end IppCode.Source
