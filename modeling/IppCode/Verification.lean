import IppCode.ExitStatus
import IppCode.Program

/-!
# Verification

What can be checked before a program runs: orders increase, arguments have the number and shapes of
the signature, literals have values, and labels are declared once and wherever a branch leads. All
faults are reported, those of the first kind before those of the second, and so on.
-/

namespace IppCode.Verification

inductive Fault where
  | zeroOrder
  | unordered (order previous : UInt32)
  | argumentCount (opcode : Opcode) (found : Nat)
  | argumentShape (opcode : Opcode) (index : Nat) (expected : Shape) (found : Argument)
  | invalidLiteral (literal : Literal)
  | duplicateLabel (name : String)
  | undefinedLabel (name : String)
deriving DecidableEq

/-- A fault and the position of its instruction, counted from one. -/
structure VerifyError where
  position : Nat
  fault : Fault
deriving DecidableEq

def shapePhrase : Shape → String
  | .var => "a variable"
  | .symbol => "a variable or literal"
  | .label => "a label"
  | .kind => "a type"

namespace VerifyError

def message (e : VerifyError) : String :=
  let place := s!"instruction {e.position}"
  match e.fault with
  | .zeroOrder => s!"{place} has order 0; orders start at 1"
  | .unordered order previous =>
    s!"{place} has order {order}, not greater than previous order {previous}"
  | .argumentCount opcode found =>
    s!"{opcode.mnemonic} at {place} takes {opcode.signature.length} argument(s), found {found}"
  | .argumentShape opcode index expected found =>
    s!"{opcode.mnemonic} at {place}: argument {index + 1} must be {shapePhrase expected}, " ++
      s!"found {found.sort}"
  | .invalidLiteral literal => s!"{literal.complaint} at {place}"
  | .duplicateLabel name => s!"label '{name}' redefined at {place}"
  | .undefinedLabel name => s!"undefined label '{name}' at {place}"

def status (e : VerifyError) : ExitStatus :=
  match e.fault with
  | .duplicateLabel _ | .undefinedLabel _ => .semanticError
  | _ => .malformedProgram

end VerifyError

/-- Instructions with their positions, which count from one. -/
def positioned (instructions : List Instruction) : List (Nat × Instruction) :=
  (instructions.zipIdx 1).map fun (i, position) => (position, i)

/-- What is wrong with an order that follows another. -/
def orderFaults (previous : Option UInt32) (order : UInt32) : List Fault :=
  (if order = 0 then [.zeroOrder] else []) ++
    match previous with
    | some before => if order ≤ before then [.unordered order before] else []
    | none => []

/-- The arguments that do not have the shapes of the signature. A wrong number of arguments is
reported in place of their shapes. -/
def argumentFaults (i : Instruction) : List Fault :=
  let shapes := i.opcode.signature
  if i.arguments.length ≠ shapes.length then [.argumentCount i.opcode i.arguments.length]
  else
    ((shapes.zip i.arguments).zipIdx).filterMap fun ((shape, argument), index) =>
      if argument.fits shape then none
      else some (.argumentShape i.opcode index shape argument)

/-- Orders and arguments, instruction by instruction. -/
def structuralErrors (previous : Option UInt32) : List (Nat × Instruction) → List VerifyError
  | [] => []
  | (position, i) :: rest =>
    (orderFaults previous i.order ++ argumentFaults i).map (⟨position, ·⟩) ++
      structuralErrors (some i.order) rest

def literalErrors (instructions : List (Nat × Instruction)) : List VerifyError :=
  instructions.flatMap fun (position, i) =>
    i.arguments.filterMap fun
      | .literal literal =>
        if literal.value?.isNone then some ⟨position, .invalidLiteral literal⟩ else none
      | _ => none

/-- The declarations of names that are among those seen before. -/
def duplicateErrors (seen : List String) : List (Nat × Instruction) → List VerifyError
  | [] => []
  | (position, i) :: rest =>
    match i.declaredLabel? with
    | none => duplicateErrors seen rest
    | some name =>
      if seen.contains name then ⟨position, .duplicateLabel name⟩ :: duplicateErrors seen rest
      else duplicateErrors (name :: seen) rest

/-- The branches to names that are not declared. -/
def undefinedErrors (declared : List String) (instructions : List (Nat × Instruction)) :
    List VerifyError :=
  instructions.filterMap fun (position, i) =>
    i.branchTarget?.bind fun name =>
      if declared.contains name then none else some ⟨position, .undefinedLabel name⟩

def labelErrors (instructions : List (Nat × Instruction)) : List VerifyError :=
  let declared := instructions.filterMap fun (_, i) => i.declaredLabel?
  duplicateErrors [] instructions ++ undefinedErrors declared instructions

def errors (p : Program) : List VerifyError :=
  let instructions := positioned p.instructions.toList
  structuralErrors none instructions ++ literalErrors instructions ++ labelErrors instructions

end IppCode.Verification
