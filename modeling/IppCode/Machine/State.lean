import IppCode.Labels
import IppCode.Machine.Endpoint
import IppCode.Machine.Operand
import IppCode.Statistics

/-!
# The machine

Everything that a run changes. Stacks have their top first.
-/

namespace IppCode

/-- How a run ends without a fault. -/
inductive Halt where
  | finished
  | exit (code : Fin 50)
deriving DecidableEq

def Halt.code : Halt → Nat
  | finished => 0
  | exit code => code

structure Machine (Out Diag : Type) where
  frames : Frames
  stack : List Value
  /-- Where calls return to. -/
  calls : List Nat
  /-- The position, from zero, of the next instruction. -/
  next : Nat
  /-- The position of the instruction dispatched last. -/
  current : Nat
  labels : LabelTable
  input : Input
  output : Out
  diagnostics : Diag
  statistics : Option Statistics
  /-- How many instructions were executed. -/
  executed : Nat

namespace Machine

variable {Out Diag : Type}

def initial (input : Input) (output : Out) (diagnostics : Diag) (counting : Bool) :
    Machine Out Diag where
  frames := .initial
  stack := []
  calls := []
  next := 0
  current := 0
  labels := .empty
  input := input
  output := output
  diagnostics := diagnostics
  statistics := if counting then some .initial else none
  executed := 0

def bracketed (items : List String) : String := "[" ++ String.intercalate ", " items ++ "]"

/-- The local frames from the innermost, each with its depth. -/
def localLines : List Frame → List String
  | [] => []
  | f :: outer => s!"LF[{outer.length}]: {f.display}" :: localLines outer

/-- The lines that `BREAK` writes. -/
def dump (m : Machine Out Diag) (order : UInt32) : List String :=
  let values := bracketed (m.stack.reverse.map Value.typed)
  let returns := bracketed (m.calls.reverse.map toString)
  let temporary := match m.frames.temporary with
    | some f => f.display
    | none => "(undefined)"
  [s!"BREAK at instruction {m.current + 1} (order {order}), {m.executed} executed",
    s!"operand stack: {values}",
    s!"call stack: {returns}",
    s!"GF: {m.frames.global.display}",
    s!"TF: {temporary}"] ++
    if m.frames.locals.isEmpty then ["LF: (undefined)"] else localLines m.frames.locals

end Machine

end IppCode
