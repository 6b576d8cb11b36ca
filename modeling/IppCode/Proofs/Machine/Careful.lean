import IppCode.Proofs.Machine.Raising
import IppCode.Proofs.Verification.Reports

/-!
# What instructions report

An instruction looks only at arguments that its signature has, so the static faults that it can run
into are those that verification finds (`step_careful`).
-/

namespace IppCode

open Verification

/-- The faults that an instruction can report: the static ones are those that verification finds. -/
inductive Foreseen (i : Instruction) (labels : LabelTable) : Fault → Prop
  | argument {v : Verification.Fault} {fault : Fault} :
      v ∈ argumentFaults i → Foretells v fault → Foreseen i labels fault
  | literal {l : Literal} : .literal l ∈ i.arguments → l.value? = none →
      Foreseen i labels (.invalidLiteral l)
  | label {name : String} : i.branchTarget? = some name → labels.find? name = none →
      Foreseen i labels (.undefinedLabel name)
  | dynamic {fault : Fault} : fault.isStatic = false → Foreseen i labels fault

theorem Fault.isStatic_of_operational {fault : Fault} (operational : fault.isOperational = true) :
    fault.isStatic = false := by
  cases fault with
  | badOperand | operator => rfl
  | _ => cases operational

theorem Raised.foreseen {i : Instruction} {labels : LabelTable} {fault : Fault}
    (raised : Raised i labels fault) : Foreseen i labels fault := by
  cases raised with
  | misfit asked misfit =>
    obtain ⟨v, reported, foretells⟩ := foretells_of_misfit misfit asked
    exact .argument reported foretells
  | literal given invalid => exact .literal given invalid
  | label target undeclared => exact .label target undeclared
  | operational operational => exact .dynamic (Fault.isStatic_of_operational operational)
  | frame | missingFrame | stackUnderflow | emptyCallStack | invalidExitCode | io =>
    exact .dynamic rfl

def Dynamic {α : Type} (result : Except Fault α) : Prop :=
  ∀ fault, result = .error fault → fault.isStatic = false

theorem Computed.dynamic {α : Type} {result : Except Fault α} (computed : Computed result) :
    Dynamic result :=
  fun fault error => Fault.isStatic_of_operational (computed fault error)

theorem Dynamic.of_read {fs : Frames} {v : Variable} :
    Dynamic ((fs.read v).mapError Fault.frame) := by
  intro fault error
  obtain ⟨e, -, rfl⟩ := mapError_frame_eq_error.1 error
  rfl

namespace Machine

variable {Out Diag : Type} [Sink Out] [Sink Diag]

theorem step_careful (i : Instruction) (m : Machine Out Diag) :
    Ensures (step i) m (fun _ after => after.labels = m.labels)
      fun fault _ => Foreseen i m.labels fault :=
  (step_raising i m).mono (fun _ _ labels => labels) fun _ _ raised => raised.foreseen

end Machine

end IppCode
