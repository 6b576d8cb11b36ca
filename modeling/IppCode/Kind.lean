/-!
# Kinds of values
-/

namespace IppCode

inductive Kind where
  | int
  | float
  | bool
  | string
  | nil
deriving DecidableEq

namespace Kind

def all : List Kind := [int, float, bool, string, nil]

/-- What the arithmetic operators accept. -/
def numeric : List Kind := [int, float]

/-- What can be less or greater than another value of its kind. -/
def ordered : List Kind := [int, float, bool, string]

def name : Kind → String
  | int => "int"
  | float => "float"
  | bool => "bool"
  | string => "string"
  | nil => "nil"

/-- Names are lowercase and match exactly. -/
def ofName? (name : String) : Option Kind := all.find? fun kind => kind.name == name

end Kind

end IppCode
