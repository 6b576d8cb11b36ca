import IppCode.Program
import IppCode.Text.Encoding

/-!
# Frames

A frame holds declared variables, which may have no value yet. There is a global frame, a stack of
local frames of which only the innermost is visible, and at times a temporary frame.
-/

namespace IppCode

/-- Declared names in the order of their encodings, each with its value if it was assigned one. -/
structure Frame where
  slots : List (String × Option Value)
deriving DecidableEq

namespace Frame

def empty : Frame := ⟨[]⟩

def size (f : Frame) : Nat := f.slots.length

def find? (f : Frame) (name : String) : Option (Option Value) := f.slots.lookup name

/-- Put a name without a value in its place. -/
def insertSlot (name : String) : List (String × Option Value) → List (String × Option Value)
  | [] => [(name, none)]
  | slot :: rest =>
    if Text.precedes name slot.1 then (name, none) :: slot :: rest
    else slot :: insertSlot name rest

def declare (f : Frame) (name : String) : Frame := ⟨insertSlot name f.slots⟩

def assign (f : Frame) (name : String) (value : Value) : Frame :=
  ⟨f.slots.map fun slot => if slot.1 = name then (slot.1, some value) else slot⟩

def displaySlot : String × Option Value → String
  | (name, some value) => name ++ "=" ++ value.typed
  | (name, none) => name ++ "=<uninitialized>"

def display (f : Frame) : String :=
  if f.slots.isEmpty then "(empty)" else String.intercalate " " (f.slots.map displaySlot)

end Frame

inductive FrameError where
  | missingFrame (scope : Scope)
  | undefined (v : Variable)
  | redefined (v : Variable)
  | uninitialized (v : Variable)
deriving DecidableEq

def FrameError.message : FrameError → String
  | missingFrame scope => s!"frame {scope.name} does not exist"
  | undefined v => s!"variable {v.display} is not defined"
  | redefined v => s!"variable {v.display} is already defined"
  | uninitialized v => s!"variable {v.display} is not initialized"

/-- All frames of a running program. The innermost local frame comes first. -/
structure Frames where
  global : Frame
  locals : List Frame
  temporary : Option Frame
deriving DecidableEq

namespace Frames

def initial : Frames := ⟨.empty, [], none⟩

def frame? (fs : Frames) : Scope → Option Frame
  | .global => some fs.global
  | .innermost => fs.locals.head?
  | .temporary => fs.temporary

/-- The frame that a variable is looked for in. -/
def frame (fs : Frames) (scope : Scope) : Except FrameError Frame :=
  match fs.frame? scope with
  | some f => .ok f
  | none => .error (.missingFrame scope)

/-- Change the frame of a scope, if it exists. -/
def modify (fs : Frames) (scope : Scope) (change : Frame → Frame) : Frames :=
  match scope with
  | .global => { fs with global := change fs.global }
  | .innermost => { fs with locals := fs.locals.modifyHead change }
  | .temporary => { fs with temporary := fs.temporary.map change }

def slot (fs : Frames) (v : Variable) : Except FrameError (Option Value) := do
  let f ← fs.frame v.scope
  match f.find? v.name with
  | some found => .ok found
  | none => .error (.undefined v)

def read (fs : Frames) (v : Variable) : Except FrameError Value := do
  match ← fs.slot v with
  | some value => .ok value
  | none => .error (.uninitialized v)

def declare (fs : Frames) (v : Variable) : Except FrameError Frames := do
  let f ← fs.frame v.scope
  match f.find? v.name with
  | some _ => .error (.redefined v)
  | none => .ok (fs.modify v.scope (·.declare v.name))

def write (fs : Frames) (v : Variable) (value : Value) : Except FrameError Frames := do
  let f ← fs.frame v.scope
  match f.find? v.name with
  | some _ => .ok (fs.modify v.scope (·.assign v.name value))
  | none => .error (.undefined v)

/-- A fresh temporary frame, in place of any other. -/
def create (fs : Frames) : Frames := { fs with temporary := some .empty }

/-- Make the temporary frame the innermost local one. -/
def push (fs : Frames) : Except FrameError Frames :=
  match fs.temporary with
  | some f => .ok { fs with locals := f :: fs.locals, temporary := none }
  | none => .error (.missingFrame .temporary)

/-- Make the innermost local frame the temporary one, in place of any other. -/
def pop (fs : Frames) : Except FrameError Frames :=
  match fs.locals with
  | f :: rest => .ok { fs with locals := rest, temporary := some f }
  | [] => .error (.missingFrame .innermost)

/-- How many variables are declared in all frames. -/
def liveCount (fs : Frames) : Nat :=
  fs.locals.foldr (fun f n => f.size + n) (fs.global.size + (fs.temporary.map Frame.size).getD 0)

end Frames

end IppCode
