/-!
# Exit statuses

Whatever stops a run, of the program text, of its execution or of the command line, is reported to
the caller by one of these numbers.
-/

namespace IppCode

inductive ExitStatus where
  | success
  | badCommandLine
  | unreadableFile
  | unwritableFile
  | malformedProgram
  | semanticError
  | operandType
  | undefinedVariable
  | undefinedFrame
  | missingValue
  | operandValue
  | stringOperation
  | internalError
deriving DecidableEq

def ExitStatus.code : ExitStatus → Nat
  | success => 0
  | badCommandLine => 10
  | unreadableFile => 11
  | unwritableFile => 12
  | malformedProgram => 32
  | semanticError => 52
  | operandType => 53
  | undefinedVariable => 54
  | undefinedFrame => 55
  | missingValue => 56
  | operandValue => 57
  | stringOperation => 58
  | internalError => 99

end IppCode
