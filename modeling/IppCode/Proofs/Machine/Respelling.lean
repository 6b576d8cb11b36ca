import IppCode.Proofs.Machine.Careful

/-!
# Spelling of labels

Instructions that differ only in their orders and in how labels are spelt, and faults that differ
only in the spelling. What an instruction finds in its arguments depends on neither, up to the names
of labels in it.
-/

namespace IppCode

def Argument.respell (f : String → String) : Argument → Argument
  | label name => label (f name)
  | a => a

def ArgumentFault.respell (f : String → String) : ArgumentFault → ArgumentFault
  | missing index => missing index
  | wrongShape index expected found => wrongShape index expected (found.respell f)
  | undecoded e => undecoded e

def Fault.respell (f : String → String) : Fault → Fault
  | malformed opcode fault => malformed opcode (fault.respell f)
  | duplicateLabel name => duplicateLabel (f name)
  | undefinedLabel name => undefinedLabel (f name)
  | fault => fault

def RuntimeError.respell (f : String → String) (e : RuntimeError) : RuntimeError :=
  ⟨e.position, e.fault.respell f⟩

structure Instruction.Respelt (f : String → String) (i j : Instruction) : Prop where
  opcode : j.opcode = i.opcode
  arguments : j.arguments = i.arguments.map (·.respell f)

def Fault.label? : Fault → Option String
  | duplicateLabel name | undefinedLabel name => some name
  | _ => none

variable {f : String → String}

theorem RuntimeError.respell_status (e : RuntimeError) : (e.respell f).status = e.status := by
  obtain ⟨position, fault⟩ := e
  cases fault <;> rfl

theorem RuntimeError.respell_message (e : RuntimeError) (unlabelled : e.fault.label? = none) :
    (e.respell f).message = e.message := by
  obtain ⟨position, fault⟩ := e
  cases fault with
  | malformed opcode fault =>
    cases fault with
    | missing | undecoded => rfl
    | wrongShape index expected found => cases found <;> rfl
  | duplicateLabel | undefinedLabel => cases unlabelled
  | _ => rfl

@[simp] theorem Argument.respell_id (a : Argument) : a.respell id = a := by
  cases a <;> rfl

@[simp] theorem Fault.respell_id (fault : Fault) : fault.respell id = fault := by
  cases fault with
  | malformed opcode fault => cases fault <;> simp [respell, ArgumentFault.respell]
  | _ => rfl

@[simp] theorem RuntimeError.respell_id (e : RuntimeError) : e.respell id = e := by
  simp [respell]

theorem Fault.respell_of_dynamic {fault : Fault} (dynamic : fault.isStatic = false) :
    fault.respell f = fault := by
  cases fault with
  | malformed | duplicateLabel | undefinedLabel => cases dynamic
  | _ => rfl

theorem Dynamic.respell {α : Type} {result : Except Fault α} (dynamic : Dynamic result) :
    result.mapError (·.respell f) = result := by
  cases result with
  | ok a => rfl
  | error fault => exact congrArg Except.error (Fault.respell_of_dynamic (dynamic fault rfl))

theorem mapError_bind {α β : Type} {result : Except Fault α} {next : α → Except Fault β}
    {F : Fault → Fault} :
    (result >>= next).mapError F = result.mapError F >>= fun a => (next a).mapError F := by
  cases result <;> rfl

namespace Instruction.Respelt

variable {α : Type} {i j : Instruction} {index : Nat}

theorem refl (i : Instruction) : i.Respelt id i :=
  ⟨rfl, by simp⟩

theorem bind_argumentAt {access other : Argument → Except Fault α} (respelt : i.Respelt f j)
    (same : ∀ a, other (a.respell f) = (access a).mapError (·.respell f)) :
    (j.argumentAt index >>= other) = (i.argumentAt index >>= access).mapError (·.respell f) := by
  unfold argumentAt
  rw [respelt.arguments, respelt.opcode, List.getElem?_map]
  cases i.arguments[index]? with
  | none => rfl
  | some a => exact same a

theorem variableAt (respelt : i.Respelt f j) :
    j.variableAt index = (i.variableAt index).mapError (·.respell f) := by
  apply respelt.bind_argumentAt
  intro a
  rw [respelt.opcode]
  cases a <;> rfl

theorem kindAt (respelt : i.Respelt f j) :
    j.kindAt index = (i.kindAt index).mapError (·.respell f) := by
  apply respelt.bind_argumentAt
  intro a
  rw [respelt.opcode]
  cases a <;> rfl

theorem labelAt (respelt : i.Respelt f j) :
    j.labelAt index = ((i.labelAt index).map f).mapError (·.respell f) := by
  unfold Instruction.labelAt argumentAt
  rw [respelt.arguments, respelt.opcode, List.getElem?_map]
  cases i.arguments[index]? with
  | none => rfl
  | some a => cases a <;> rfl

theorem symbol (respelt : i.Respelt f j) (fs : Frames) :
    fs.symbol j index = (fs.symbol i index).mapError (·.respell f) := by
  apply respelt.bind_argumentAt
  intro a
  rw [respelt.opcode]
  cases a with
  | var v => exact Dynamic.of_read.respell.symm
  | literal l =>
    show convert l = (convert l).mapError _
    unfold convert
    cases l.value? <;> rfl
  | label name => rfl
  | kind k => rfl

theorem operand {accepted : List Kind} (respelt : i.Respelt f j) (fs : Frames) :
    fs.operand j index accepted = (fs.operand i index accepted).mapError (·.respell f) := by
  unfold Frames.operand
  rw [mapError_bind, respelt.symbol fs, respelt.opcode]
  congr 1
  funext x
  rw [mapError_bind, Computed.of_expect.dynamic.respell]
  rfl

theorem kindName (respelt : i.Respelt f j) (fs : Frames) :
    fs.kindName j index = (fs.kindName i index).mapError (·.respell f) := by
  have value : (do return (← fs.symbol j index).kind.name : Except Fault String) =
      (do return (← fs.symbol i index).kind.name : Except Fault String).mapError (·.respell f) := by
    rw [mapError_bind, respelt.symbol fs]
    rfl
  apply respelt.bind_argumentAt
  intro a
  cases a with
  | var v =>
    have same : (Argument.var v).respell f = .var v := rfl
    simp only [same]
    cases fs.slot v <;> rfl
  | literal l => exact value
  | label name => exact value
  | kind k => exact value

end Instruction.Respelt

end IppCode
