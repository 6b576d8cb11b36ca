import IppCode.Opcode
import IppCode.Text.Letter
import IppCode.Text.Split
import IppCode.Value

/-!
# Programs

A program is a sequence of instructions. Each has an operation code, the order it was declared
with, and arguments whose number and shapes are not restricted here.
-/

namespace IppCode

/-- The frame of a variable: the global one, the innermost local one or the temporary one. -/
inductive Scope where
  | global
  | innermost
  | temporary
deriving DecidableEq

def Scope.name : Scope → String
  | global => "GF"
  | innermost => "LF"
  | temporary => "TF"

def Scope.ofName? : String → Option Scope
  | "GF" => some .global
  | "LF" => some .innermost
  | "TF" => some .temporary
  | _ => none

/-- Marks that names may hold beside letters and digits. -/
def isNameMark (c : Char) : Bool := "_-$&%*!?".toList.contains c

def startsName (c : Char) : Bool := Text.isAlphabetic c || isNameMark c

def continuesName (c : Char) : Bool := Text.isAlphabetic c || Text.isNumeric c || isNameMark c

def isIdentifier (name : String) : Bool :=
  match name.toList with
  | [] => false
  | c :: rest => startsName c && rest.all continuesName

structure Variable where
  scope : Scope
  name : String
deriving DecidableEq

namespace Variable

def display (v : Variable) : String := v.scope.name ++ "@" ++ v.name

/-- Reads `GF@name`, `LF@name` or `TF@name`. -/
def ofText? (text : String) : Option Variable := do
  let (scope, name) ← Text.splitFirst? '@' text.toList
  let scope ← Scope.ofName? (String.ofList scope)
  if isIdentifier (String.ofList name) then some ⟨scope, String.ofList name⟩ else none

end Variable

inductive Argument where
  | var (v : Variable)
  | literal (l : Literal)
  | label (name : String)
  | kind (k : Kind)
deriving DecidableEq

namespace Argument

/-- What sort of argument it is, as diagnostics call it. -/
def sort : Argument → String
  | var _ => "var"
  | literal _ => "literal"
  | label _ => "label"
  | kind _ => "type"

def display : Argument → String
  | var v => v.display
  | literal l => l.display
  | label name => name
  | kind k => k.name

/-- A symbol is a variable or a literal. -/
def fits : Argument → Shape → Bool
  | var _, .var => true
  | var _, .symbol => true
  | literal _, .symbol => true
  | label _, .label => true
  | kind _, .kind => true
  | _, _ => false

end Argument

structure Instruction where
  opcode : Opcode
  order : UInt32
  arguments : List Argument
deriving DecidableEq

namespace Instruction

/-- The name that a `LABEL` instruction declares. -/
def declaredLabel? (i : Instruction) : Option String :=
  match i.opcode, i.arguments with
  | .label, .label name :: _ => some name
  | _, _ => none

/-- The name that a branch instruction leads to. -/
def branchTarget? (i : Instruction) : Option String :=
  match i.arguments with
  | .label name :: _ => if i.opcode.isBranch then some name else none
  | _ => none

/-- The mnemonic and the arguments, with single spaces. -/
def display (i : Instruction) : String :=
  String.intercalate " " (i.opcode.mnemonic :: i.arguments.map Argument.display)

end Instruction

structure Program where
  instructions : Array Instruction
deriving DecidableEq

end IppCode
