import IppCode.ExitStatus
import IppCode.Labels

/-!
# Decoding names

Mnemonics, names of kinds, variables and label tables, with an error where there is none.
-/

namespace IppCode

inductive DecodeError where
  | unknownOpcode (text : String)
  | unknownKind (text : String)
  | invalidVariable (text : String)
  | duplicateLabel (repeated : DuplicateLabel)
deriving DecidableEq

namespace DecodeError

def message : DecodeError → String
  | unknownOpcode text => s!"unknown opcode '{text}'"
  | unknownKind text => s!"unknown type '{text}'"
  | invalidVariable text => s!"invalid variable reference '{text}'"
  | duplicateLabel repeated =>
    s!"label '{repeated.name}' redefined at position {repeated.position}"

def status : DecodeError → ExitStatus
  | duplicateLabel _ => .semanticError
  | _ => .malformedProgram

end DecodeError

def Opcode.decode (text : String) : Except DecodeError Opcode :=
  match ofMnemonic? text with
  | some opcode => .ok opcode
  | none => .error (.unknownOpcode text)

def Kind.decode (text : String) : Except DecodeError Kind :=
  match ofName? text with
  | some kind => .ok kind
  | none => .error (.unknownKind text)

def Variable.decode (text : String) : Except DecodeError Variable :=
  match ofText? text with
  | some v => .ok v
  | none => .error (.invalidVariable text)

def Program.decodeLabels (p : Program) : Except DecodeError LabelTable :=
  p.labels.mapError .duplicateLabel

end IppCode
