import IppCode.Kind
import IppCode.Text.Letter

/-!
# Operation codes

The 56 instructions. Most operators come in two forms: one takes its operands from the arguments of
the instruction and stores its result in a variable, the other works on the operand stack and has
an `S` at the end of its mnemonic.
-/

namespace IppCode

inductive Shape where
  | var
  | symbol
  | label
  | kind
deriving DecidableEq

/-- Where an operator finds its operands and leaves its result. -/
inductive Form where
  | arguments
  | stack
deriving DecidableEq

inductive ArithmeticOp where
  | add
  | sub
  | mul
  | idiv
  | div
deriving DecidableEq

inductive ComparisonOp where
  | lt
  | gt
  | eq
deriving DecidableEq

inductive LogicOp where
  | and
  | or
deriving DecidableEq

inductive BinaryOp where
  | arithmetic (op : ArithmeticOp)
  | comparison (op : ComparisonOp)
  | logic (op : LogicOp)
  | charCode
deriving DecidableEq

inductive UnaryOp where
  | not
  | intToChar
  | intToFloat
  | floatToInt
deriving DecidableEq

inductive Opcode where
  | move
  | createFrame
  | pushFrame
  | popFrame
  | declare
  | call
  | ret
  | push
  | pop
  | clear
  | binary (form : Form) (op : BinaryOp)
  | unary (form : Form) (op : UnaryOp)
  | read
  | write
  | concat
  | length
  | getChar
  | setChar
  | kindOf
  | label
  | jump
  | jumpIf (form : Form) (whenEqual : Bool)
  | exit
  | print
  | dump
deriving DecidableEq

def Shape.name : Shape → String
  | var => "var"
  | symbol => "symb"
  | label => "label"
  | kind => "type"

def Form.suffix : Form → String
  | arguments => ""
  | stack => "S"

def BinaryOp.all : List BinaryOp :=
  [.arithmetic .add, .arithmetic .sub, .arithmetic .mul, .arithmetic .idiv, .arithmetic .div,
    .comparison .lt, .comparison .gt, .comparison .eq, .logic .and, .logic .or, .charCode]

def BinaryOp.mnemonic : BinaryOp → String
  | arithmetic .add => "ADD"
  | arithmetic .sub => "SUB"
  | arithmetic .mul => "MUL"
  | arithmetic .idiv => "IDIV"
  | arithmetic .div => "DIV"
  | comparison .lt => "LT"
  | comparison .gt => "GT"
  | comparison .eq => "EQ"
  | logic .and => "AND"
  | logic .or => "OR"
  | charCode => "STRI2INT"

def UnaryOp.all : List UnaryOp := [.not, .intToChar, .intToFloat, .floatToInt]

def UnaryOp.mnemonic : UnaryOp → String
  | not => "NOT"
  | intToChar => "INT2CHAR"
  | intToFloat => "INT2FLOAT"
  | floatToInt => "FLOAT2INT"

namespace Opcode

def all : List Opcode :=
  [move, createFrame, pushFrame, popFrame, declare, call, ret, push, pop, clear] ++
    BinaryOp.all.map (binary .arguments) ++ UnaryOp.all.map (unary .arguments) ++
    [read, write, concat, length, getChar, setChar, kindOf, label, jump,
      jumpIf .arguments true, jumpIf .arguments false, exit, print, dump] ++
    BinaryOp.all.map (binary .stack) ++ UnaryOp.all.map (unary .stack) ++
    [jumpIf .stack true, jumpIf .stack false]

def mnemonic : Opcode → String
  | move => "MOVE"
  | createFrame => "CREATEFRAME"
  | pushFrame => "PUSHFRAME"
  | popFrame => "POPFRAME"
  | declare => "DEFVAR"
  | call => "CALL"
  | ret => "RETURN"
  | push => "PUSHS"
  | pop => "POPS"
  | clear => "CLEARS"
  | binary form op => op.mnemonic ++ form.suffix
  | unary form op => op.mnemonic ++ form.suffix
  | read => "READ"
  | write => "WRITE"
  | concat => "CONCAT"
  | length => "STRLEN"
  | getChar => "GETCHAR"
  | setChar => "SETCHAR"
  | kindOf => "TYPE"
  | label => "LABEL"
  | jump => "JUMP"
  | jumpIf form whenEqual => (if whenEqual then "JUMPIFEQ" else "JUMPIFNEQ") ++ form.suffix
  | exit => "EXIT"
  | print => "DPRINT"
  | dump => "BREAK"

/-- The shapes of the arguments, in order. -/
def signature : Opcode → List Shape
  | createFrame | pushFrame | popFrame | ret | clear | dump => []
  | binary .stack _ | unary .stack _ => []
  | declare | pop => [.var]
  | call | label | jump | jumpIf .stack _ => [.label]
  | push | write | exit | print => [.symbol]
  | move | length | kindOf | unary .arguments _ => [.var, .symbol]
  | read => [.var, .kind]
  | concat | getChar | setChar | binary .arguments _ => [.var, .symbol, .symbol]
  | jumpIf .arguments _ => [.label, .symbol, .symbol]

/-- Instructions that the statistics do not count. -/
def isBookkeeping : Opcode → Bool
  | label | print | dump => true
  | _ => false

/-- Instructions whose first argument is the label where execution may go on. -/
def isBranch : Opcode → Bool
  | call | jump | jumpIf _ _ => true
  | _ => false

/-- Mnemonics match in any case. -/
def ofMnemonic? (text : String) : Option Opcode :=
  all.find? fun opcode => Text.sameLetters opcode.mnemonic text

end Opcode

end IppCode
