import IppCode.Proofs.Labels
import IppCode.Proofs.Machine.Careful
import IppCode.Proofs.Machine.Execution
import IppCode.Proofs.Verification.Exactness

/-!
# Soundness of verification

Malformed arguments, literals without a value and labels that are declared twice or nowhere stop a
program that is run, and verification reports each of them beforehand, at the same instruction and
with the same status.
-/

namespace IppCode

open Verification

variable {p : Program} {i : Instruction} {position : Nat}

theorem Program.find?_labels_eq_none {labels : LabelTable} {name : String}
    (h : p.labels = .ok labels) :
    labels.find? name = none ↔ ∀ other ∈ p.instructions, other.declaredLabel? ≠ some name := by
  rw [LabelTable.find?_extend_eq_none h]
  simp [LabelTable.empty, LabelTable.find?]

theorem duplicate_mem_errors {repeated : DuplicateLabel} (h : p.labels = .error repeated) :
    ⟨repeated.position, .duplicateLabel repeated.name⟩ ∈ errors p := by
  have first := LabelTable.head?_duplicateErrors_of_extend h LabelTable.agree_empty
  exact mem_errors.2 (.inr (.inr (.inl (List.mem_of_mem_head? first))))

theorem Foreseen.reported {labels : LabelTable} {fault : Fault} (foreseen : Foreseen i labels fault)
    (static : fault.isStatic = true) (table : p.labels = .ok labels)
    (found : p.instructions[position]? = some i) :
    ∃ v ∈ errors p, v.position = position + 1 ∧ Foretells v.fault fault := by
  have report {v : Verification.Fault} (flaw : Flaw p position v) : ⟨position + 1, v⟩ ∈ errors p :=
    mem_errors_iff.2 ⟨position, rfl, flaw⟩
  cases foreseen with
  | argument reported foretells =>
    exact ⟨_, report ((shape_flaw found).1 reported).1, rfl, foretells⟩
  | literal argument invalid =>
    exact ⟨_, report (.invalidLiteral found argument invalid), rfl, .invalidLiteral⟩
  | label target undeclared =>
    have unknown := (Program.find?_labels_eq_none table).1 undeclared
    exact ⟨_, report (.undefinedLabel found target unknown), rfl, .undefinedLabel⟩
  | dynamic dynamic => simp [dynamic] at static

namespace Machine

variable {Out Diag : Type} [Sink Out] [Sink Diag]

theorem execute_reported {limit : Nat} {m after : Machine Out Diag} {e : RuntimeError}
    (failed : execute p limit m = (after, some (.error e))) (static : e.fault.isStatic = true) :
    ∃ v ∈ errors p, v.position = e.position ∧ Foretells v.fault e.fault := by
  rcases execute_error failed with
    ⟨repeated, table, rfl⟩ | ⟨labels, last, stopped, table, steps, ends⟩ | ⟨text, io⟩
  -- The label table was not built.
  · exact ⟨_, duplicate_mem_errors table, rfl, .duplicateLabel⟩
  -- An instruction failed that a sequence of dispatches with the table leads to.
  · cases advances_of_advance ends with
    | failed found error =>
      have foreseen := (step_careful _ _).of_error error
      exact foreseen.reported static (table.trans (congrArg Except.ok steps.labels.symm)) found
  -- A sink could not be flushed, which is no static fault.
  · simp [io, Fault.isStatic] at static

theorem Session.reported {m after : Machine Out Diag} {results : List (Except RuntimeError Halt)}
    {e : RuntimeError} (session : Session p m results after) (returned : .error e ∈ results)
    (static : e.fault.isStatic = true) :
    ∃ v ∈ errors p, v.position = e.position ∧ Foretells v.fault e.fault := by
  obtain ⟨start, limit, stopped, failed⟩ := session.returned returned
  exact execute_reported failed static

/-- Whatever machine a session starts on, verification reports its static faults. -/
theorem Session.foretold {m after : Machine Out Diag}
    {results : List (Except RuntimeError Halt)} (session : Session p m results after) :
    (∀ e, .error e ∈ results → e.fault.isStatic = true →
      ∃ v ∈ errors p, v.position = e.position ∧ v.status = e.status ∧
        Foretells v.fault e.fault) ∧
    (errors p = [] → ∀ e, .error e ∈ results → e.fault.isStatic = false) := by
  have reported (e : RuntimeError) (returned : .error e ∈ results)
      (static : e.fault.isStatic = true) :
      ∃ v ∈ errors p, v.position = e.position ∧ v.status = e.status ∧
        Foretells v.fault e.fault := by
    obtain ⟨v, listed, position, foretells⟩ := session.reported returned static
    exact ⟨v, listed, position, foretells.status v.position, foretells⟩
  refine ⟨reported, fun accepted e returned => ?_⟩
  cases static : e.fault.isStatic with
  | false => rfl
  | true =>
    obtain ⟨v, listed, -⟩ := reported e returned static
    simp [accepted] at listed

theorem Session.foretold_jump :
    ∃ (p : Program) (m after : Machine Buffer Buffer) (results : List (Except RuntimeError Halt)),
      p = ⟨#[⟨.clear, 1, []⟩, ⟨.jump, 2, [.label "end"]⟩]⟩ ∧
      results = [.error ⟨2, .undefinedLabel "end"⟩, .ok .finished] ∧ Session p m results after ∧
      (∀ e, .error e ∈ results → e.fault.isStatic = true →
        ∃ v ∈ errors p, v.position = e.position ∧ v.status = e.status ∧
          Foretells v.fault e.fault) ∧
      (errors p = [] → ∀ e, .error e ∈ results → e.fault.isStatic = false) := by
  let p : Program := ⟨#[⟨.clear, 1, []⟩, ⟨.jump, 2, [.label "end"]⟩]⟩
  let m := initial ⟨[], none⟩ Buffer.unbounded Buffer.unbounded false
  have first : execute p 2 m = (_, some (.error ⟨2, .undefinedLabel "end"⟩)) := rfl
  have session := Session.call first (.call (show execute p 1 _ = (_, some _) from rfl) .done)
  exact ⟨p, m, _, _, rfl, rfl, session, session.foretold⟩

end Machine

end IppCode
