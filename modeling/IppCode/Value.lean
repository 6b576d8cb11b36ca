import IppCode.Binary64.Reader
import IppCode.Kind
import IppCode.Text.Escape
import IppCode.Text.Letter

/-!
# Values

Values have two texts: `display` is what a program prints, and `typed` tells values of different
kinds apart. Two values are equal if they are the same, so floats are compared bit by bit here;
the numerical comparison is an operator.
-/

namespace IppCode

inductive Value where
  | int (n : Int64)
  | float (x : Binary64)
  | bool (b : Bool)
  | string (s : String)
  | nil
deriving DecidableEq

def int64? (text : List Char) : Option Int64 :=
  (Text.boundedInteger? Int64.minValue.toInt Int64.maxValue.toInt (Text.trim text)).map .ofInt

namespace Value

def kind : Value → Kind
  | int _ => .int
  | float _ => .float
  | bool _ => .bool
  | string _ => .string
  | nil => .nil

/-- The number that mixed arithmetic works with. -/
def asFloat? : Value → Option Binary64
  | int n => some (.ofInt n.toInt)
  | float x => some x
  | _ => none

/-- The printed form. A string prints as it is, nil as nothing. -/
def display : Value → String
  | int n => toString n.toInt
  | float x => String.ofList (Binary64.Hexadecimal.write x)
  | bool b => if b then "true" else "false"
  | string s => s
  | nil => ""

/-- The text of a value without its kind, as it stands in a source. -/
def sourceText : Value → String
  | string s => String.ofList (Text.Escape.encode s.toList)
  | nil => "nil"
  | value => value.display

/-- The kind and the text, with `@` between them. -/
def typed (value : Value) : String := value.kind.name ++ "@" ++ value.sourceText

/-- The value of a line of input, read as the given kind. A missing line and text that is no number
are nil; every line but `true` is false. -/
def ofInput (kind : Kind) : Option String → Value
  | none => nil
  | some line =>
    match kind with
    | .int => ((int64? line.toList).map int).getD nil
    | .float => ((Binary64.read? line.toList).map float).getD nil
    | .bool => bool (Text.sameLetters (String.ofList (Text.trim line.toList)) "true")
    | .string => string line
    | .nil => nil

end Value

/-- A value as it is written in a program: the kind, and a text that may not fit it. -/
structure Literal where
  kind : Kind
  text : String
deriving DecidableEq

namespace Literal

def ofValue (value : Value) : Literal := ⟨value.kind, value.sourceText⟩

/-- The value that the text denotes, if it is a text of its kind. -/
def value? (literal : Literal) : Option Value :=
  match literal.kind with
  | .int => (int64? literal.text.toList).map Value.int
  | .float => (Binary64.read? literal.text.toList).map Value.float
  | .bool =>
    if literal.text = "true" then some (.bool true)
    else if literal.text = "false" then some (.bool false)
    else none
  | .string => (Text.Escape.decode? literal.text.toList).map fun s => .string (String.ofList s)
  | .nil => if literal.text = "nil" then some .nil else none

def display (literal : Literal) : String := literal.kind.name ++ "@" ++ literal.text

def complaint (literal : Literal) : String :=
  s!"value '{literal.text}' can't be converted to {literal.kind.name}"

end Literal

end IppCode
