import IppCode.Program
import IppCode.Source.Fault

/-!
# Loading

A source text is a header line and then an instruction on every line that holds one. Comments begin
with `#`. The shapes of arguments are checked here; whether a literal has a value and whether a
label is declared is not.
-/

namespace IppCode.Source

open Text

/-- The words of a line in front of its comment. -/
def lineWords (line : List Char) : List String :=
  (words (line.takeWhile (· != '#'))).map String.ofList

/-- The lines that hold words, with their numbers from one. -/
def significantLines (text : List Char) : List (Nat × List String) :=
  ((lines text).zipIdx 1).filterMap fun (line, number) =>
    let found := lineWords line
    if found.isEmpty then none else some (number, found)

def header : String := ".IPPcode22"

/-- Whether the words of a line are the header, in any case. -/
def isHeader : List String → Bool
  | [word] => sameLetters word header
  | _ => false

/-- Words that begin like a variable cannot be read as literals. -/
def looksLikeVariable (word : String) : Bool :=
  ["GF@", "LF@", "TF@"].any fun start => start.toList.isPrefixOf word.toList

/-- A literal is a kind, `@` and the text. The only text of kind nil is `nil`. -/
def literal? (word : String) : Option Literal := do
  let (kind, text) ← splitFirst? '@' word.toList
  let kind ← Kind.ofName? (String.ofList kind)
  if kind = .nil ∧ String.ofList text ≠ "nil" then none else some ⟨kind, String.ofList text⟩

/-- The argument of a shape that a word is. -/
def argument? : Shape → String → Option Argument
  | .var, word => (Variable.ofText? word).map .var
  | .symbol, word =>
    if looksLikeVariable word then (Variable.ofText? word).map .var
    else (literal? word).map .literal
  | .label, word => if isIdentifier word then some (.label word) else none
  | .kind, word => (Kind.ofName? word).map .kind

def arguments : List Shape → List String → Except Fault (List Argument)
  | shape :: shapes, word :: words =>
    match argument? shape word with
    | none => .error (.invalidArgument shape word)
    | some argument => (arguments shapes words).map (argument :: ·)
  | _, _ => .ok []

/-- The operation code, then the number of arguments, then their shapes are checked. -/
def instruction (order : UInt32) (mnemonic : String) (rest : List String) :
    Except Fault Instruction :=
  match Opcode.ofMnemonic? mnemonic with
  | none => .error (.unknownOpcode mnemonic)
  | some opcode =>
    let shapes := opcode.signature
    if rest.length < shapes.length then .error (.missingArgument opcode)
    else
      match rest[shapes.length]? with
      | some extra => .error (.unexpectedWord extra)
      | none => (arguments shapes rest).map fun found => ⟨opcode, order, found⟩

/-- The instructions of the lines after the header, declared with consecutive orders. -/
def instructions (order : Nat) : List (Nat × List String) → Except LoadError (List Instruction)
  | (line, mnemonic :: rest) :: lines =>
    match instruction (.ofNat order) mnemonic rest with
    | .error fault => .error ⟨line, fault⟩
    | .ok i => (instructions (order + 1) lines).map (i :: ·)
  | (_, []) :: lines => instructions order lines
  | [] => .ok []

/-- The program of a source text, or the first fault in it. A text without any words lacks its
header in the last line. -/
def load (text : String) : Except LoadError Program :=
  match significantLines text.toList with
  | [] => .error ⟨(lines text.toList).length, .missingHeader⟩
  | (line, first) :: rest =>
    if isHeader first then (instructions 1 rest).map fun found => ⟨found.toArray⟩
    else .error ⟨line, .missingHeader⟩

end IppCode.Source
