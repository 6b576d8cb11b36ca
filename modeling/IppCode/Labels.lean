import IppCode.Program

/-!
# Label tables

Where the labels of a program are declared. A table exists only if no name is declared twice.
-/

namespace IppCode

/-- Names and the positions, from zero, of the instructions that declare them. -/
structure LabelTable where
  entries : List (String × Nat)
deriving DecidableEq

/-- A name that is declared again at a position, which counts from one. -/
structure DuplicateLabel where
  name : String
  position : Nat
deriving DecidableEq

namespace LabelTable

def empty : LabelTable := ⟨[]⟩

def size (table : LabelTable) : Nat := table.entries.length

def find? (table : LabelTable) (name : String) : Option Nat := table.entries.lookup name

/-- Add the declarations of instructions, the first of which is at `position`. -/
def extend (table : LabelTable) (position : Nat) :
    List Instruction → Except DuplicateLabel LabelTable
  | [] => .ok table
  | i :: rest =>
    match i.declaredLabel? with
    | none => extend table (position + 1) rest
    | some name =>
      if (table.find? name).isSome then .error ⟨name, position + 1⟩
      else extend ⟨(name, position) :: table.entries⟩ (position + 1) rest

end LabelTable

/-- The table of a program, or the first declaration that repeats a name. -/
def Program.labels (p : Program) : Except DuplicateLabel LabelTable :=
  LabelTable.empty.extend 0 p.instructions.toList

end IppCode
