import IppCode.Machine.State

/-!
# One instruction

An action changes the machine and has a result or a fault. A fault keeps what was done before it:
operands taken from the stack and bytes read or written are gone.
-/

namespace IppCode

abbrev Action (Out Diag : Type) := EStateM Fault (Machine Out Diag)

namespace Machine

variable {Out Diag : Type}

/-- A result that depends on the frames only. -/
def view {α : Type} (f : Frames → Except Fault α) : Action Out Diag α := fun m =>
  match f m.frames with
  | .ok a => .ok a m
  | .error fault => .error fault m

/-- A result that does not depend on the machine. -/
def lift {α : Type} (result : Except Fault α) : Action Out Diag α := view fun _ => result

/-- Replace the frames, or fail. -/
def reframe (f : Frames → Except FrameError Frames) : Action Out Diag Unit := fun m =>
  match f m.frames with
  | .ok frames => .ok () { m with frames }
  | .error e => .error (.frame e) m

def assign (v : Variable) (value : Value) : Action Out Diag Unit := reframe (·.write v value)

def push (value : Value) : Action Out Diag Unit := fun m =>
  .ok () { m with stack := value :: m.stack }

def goTo (position : Nat) : Action Out Diag Unit := fun m => .ok () { m with next := position }

/-- Demand a number of values on the operand stack. -/
def requireDepth (opcode : Opcode) (needed : Nat) : Action Out Diag Unit := fun m =>
  if m.stack.length < needed then .error (.stackUnderflow opcode needed m.stack.length) m
  else .ok () m

/-- Take the top of the operand stack. -/
def takeTop (opcode : Opcode) : Action Out Diag Value := fun m =>
  match m.stack with
  | a :: rest => .ok a { m with stack := rest }
  | [] => .error (.stackUnderflow opcode 1 0) m

def takeOne (opcode : Opcode) : Action Out Diag Value := do
  requireDepth opcode 1
  takeTop opcode

/-- The right operand is on top. -/
def takeTwo (opcode : Opcode) : Action Out Diag (Value × Value) := do
  requireDepth opcode 2
  let b ← takeTop opcode
  let a ← takeTop opcode
  return (a, b)

def oneOperand (i : Instruction) (form : Form) (kinds : List Kind) : Action Out Diag Value :=
  match form with
  | .arguments => view (·.operand i 1 kinds)
  | .stack => do
    let a ← takeOne i.opcode
    lift (expect i.opcode kinds a)
    return a

def twoOperands (i : Instruction) (form : Form) (left right : List Kind) :
    Action Out Diag (Value × Value) :=
  match form with
  | .arguments => do
    let a ← view (·.operand i 1 left)
    let b ← view (·.operand i 2 right)
    return (a, b)
  | .stack => do
    let (a, b) ← takeTwo i.opcode
    lift (expect i.opcode left a)
    lift (expect i.opcode right b)
    return (a, b)

/-- Leave a result where the form wants it. The destination is looked at only now. -/
def store (i : Instruction) (form : Form) (value : Value) : Action Out Diag Unit :=
  match form with
  | .arguments => do
    let v ← lift (i.variableAt 0)
    assign v value
  | .stack => push value

def unary (i : Instruction) (form : Form) (kinds : List Kind)
    (f : Value → Except Fault Value) : Action Out Diag Unit := do
  let a ← oneOperand i form kinds
  let result ← lift (f a)
  store i form result

def binary (i : Instruction) (form : Form) (left right : List Kind)
    (f : Value → Value → Except Fault Value) : Action Out Diag Unit := do
  let (a, b) ← twoOperands i form left right
  let result ← lift (f a b)
  store i form result

def resolve (name : String) : Action Out Diag Nat := fun m =>
  match m.labels.find? name with
  | some position => .ok position m
  | none => .error (.undefinedLabel name) m

def branchTarget (i : Instruction) : Action Out Diag Nat := do
  let name ← lift (i.labelAt 0)
  resolve name

def move (i : Instruction) : Action Out Diag Unit := do
  let v ← lift (i.variableAt 0)
  let value ← view (·.symbol i 1)
  assign v value

def declare (i : Instruction) : Action Out Diag Unit := do
  let v ← lift (i.variableAt 0)
  reframe (·.declare v)

/-- Remember the instruction after this one, and go to the label. -/
def call (i : Instruction) : Action Out Diag Unit := do
  let target ← branchTarget i
  modify fun m => { m with calls := m.next :: m.calls, next := target }

def ret : Action Out Diag Unit := fun m =>
  match m.calls with
  | position :: rest => .ok () { m with calls := rest, next := position }
  | [] => .error .emptyCallStack m

def pushSymbol (i : Instruction) : Action Out Diag Unit := do
  let value ← view (·.symbol i 0)
  push value

def clear : Action Out Diag Unit := fun m => .ok () { m with stack := [] }

def pop (i : Instruction) : Action Out Diag Unit := do
  let v ← lift (i.variableAt 0)
  let value ← takeOne i.opcode
  assign v value

def concat (opcode : Opcode) (a b : Value) : Except Fault Value := do
  let s ← expectString opcode a
  let t ← expectString opcode b
  return .string (s ++ t)

def length (opcode : Opcode) (a : Value) : Except Fault Value := do
  let s ← expectString opcode a
  return .int (.ofNat s.toList.length)

def getChar (opcode : Opcode) (a b : Value) : Except Fault Value := do
  let s ← expectString opcode a
  let index ← expectInt opcode b
  (asFault opcode (charAt s index)).map fun c => .string (String.singleton c)

/-- The variable is read before the other operands, and written in the end. -/
def setChar (i : Instruction) : Action Out Diag Unit := do
  let v ← lift (i.variableAt 0)
  let old ← view fun frames => (frames.read v).mapError Fault.frame
  let s ← lift (expectString i.opcode old)
  let a ← view (·.operand i 1 [.int])
  let index ← lift (expectInt i.opcode a)
  let b ← view (·.operand i 2 [.string])
  let replacement ← lift (expectString i.opcode b)
  let result ← lift (asFault i.opcode (IppCode.setChar s index replacement))
  assign v (.string result)

def kindOf (i : Instruction) : Action Out Diag Unit := do
  let v ← lift (i.variableAt 0)
  let name ← view (·.kindName i 1)
  assign v (.string name)

def jump (i : Instruction) : Action Out Diag Unit := do
  let target ← branchTarget i
  goTo target

/-- The label has to be declared whether the branch is taken or not. -/
def jumpIf (i : Instruction) (form : Form) (whenEqual : Bool) : Action Out Diag Unit := do
  let target ← branchTarget i
  let (a, b) ← twoOperands i form Kind.all Kind.all
  let equal ← lift (asFault i.opcode (ComparisonOp.eq.apply a b))
  if equal = whenEqual then goTo target

/-- The exit code has to be one of the first fifty numbers. -/
def exit (i : Instruction) : Action Out Diag (Option Halt) := do
  let a ← view (·.operand i 0 [.int])
  let code ← lift (expectInt i.opcode a)
  if h : 0 ≤ code.toInt ∧ code.toInt < 50 then return some (.exit ⟨code.toInt.toNat, by omega⟩)
  else throw (.invalidExitCode code)

/-! ## Input and output -/

def readLine : Action Out Diag (Option String) := fun m =>
  match m.input.readLine with
  | (input, .ok line) => .ok line { m with input }
  | (input, .error text) => .error (.io text) { m with input }

def read (i : Instruction) : Action Out Diag Unit := do
  let v ← lift (i.variableAt 0)
  let kind ← lift (i.kindAt 1)
  let line ← readLine
  assign v (.ofInput kind line)

def writeOutput [Sink Out] (text : String) : Action Out Diag Unit := fun m =>
  match Sink.write m.output (Text.bytes text) with
  | (output, none) => .ok () { m with output }
  | (output, some failure) => .error (.io failure) { m with output }

def writeDiagnostics [Sink Diag] (text : String) : Action Out Diag Unit := fun m =>
  match Sink.write m.diagnostics (Text.bytes text) with
  | (diagnostics, none) => .ok () { m with diagnostics }
  | (diagnostics, some failure) => .error (.io failure) { m with diagnostics }

def write [Sink Out] (i : Instruction) : Action Out Diag Unit := do
  let value ← view (·.symbol i 0)
  writeOutput value.display

def print [Sink Diag] (i : Instruction) : Action Out Diag Unit := do
  let value ← view (·.symbol i 0)
  writeDiagnostics (value.display ++ "\n")

def breakpoint [Sink Diag] (i : Instruction) : Action Out Diag Unit := do
  let m ← get
  writeDiagnostics (String.join ((m.dump i.order).map (· ++ "\n")))

/-! ## Dispatch -/

def proceed (action : Action Out Diag Unit) : Action Out Diag (Option Halt) := do
  action
  return none

/-- Execute an instruction. Only `EXIT` ends the run. -/
def step [Sink Out] [Sink Diag] (i : Instruction) : Action Out Diag (Option Halt) :=
  match i.opcode with
  | .move => proceed (move i)
  | .createFrame => proceed (reframe fun frames => .ok frames.create)
  | .pushFrame => proceed (reframe (·.push))
  | .popFrame => proceed (reframe (·.pop))
  | .declare => proceed (declare i)
  | .call => proceed (call i)
  | .ret => proceed ret
  | .push => proceed (pushSymbol i)
  | .pop => proceed (pop i)
  | .clear => proceed clear
  | .binary form op => proceed (binary i form op.leftKinds op.rightKinds (op.apply i.opcode))
  | .unary form op => proceed (unary i form op.kinds (op.apply i.opcode))
  | .read => proceed (read i)
  | .write => proceed (write i)
  | .concat => proceed (binary i .arguments [.string] [.string] (concat i.opcode))
  | .length => proceed (unary i .arguments [.string] (length i.opcode))
  | .getChar => proceed (binary i .arguments [.string] [.int] (getChar i.opcode))
  | .setChar => proceed (setChar i)
  | .kindOf => proceed (kindOf i)
  | .label => proceed (pure ())
  | .jump => proceed (jump i)
  | .jumpIf form whenEqual => proceed (jumpIf i form whenEqual)
  | .exit => exit i
  | .print => proceed (print i)
  | .dump => proceed (breakpoint i)

end Machine

end IppCode
