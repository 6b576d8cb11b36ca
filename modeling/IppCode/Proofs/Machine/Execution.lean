import IppCode.Machine.Run
import IppCode.Proofs.Labels
import IppCode.Proofs.Machine.Outcome
import Mathlib.Logic.Relation

/-!
# Executions

A run as a sequence of dispatches, the way an execution returns, and successive executions on one
machine. Every statement about the faults of a program goes through `execute_error`: a fault comes
from the label table, from a dispatch that a sequence of others leads to, or from a sink.
-/

namespace IppCode.Machine

variable {Out Diag : Type} {m after : Machine Out Diag} {p : Program} {limit : Nat}

structure SameBooks (m after : Machine Out Diag) : Prop where
  current : after.current = m.current
  labels : after.labels = m.labels
  statistics : after.statistics = m.statistics
  executed : after.executed = m.executed

theorem SameBooks.refl (m : Machine Out Diag) : SameBooks m m := ⟨rfl, rfl, rfl, rfl⟩

variable [Sink Out] [Sink Diag]

theorem step_books (i : Instruction) (m : Machine Out Diag) :
    Ensures (step i) m (fun _ after => SameBooks m after) (fun _ after => SameBooks m after) := by
  have same (frames stack calls next input output diagnostics) : SameBooks m
      ⟨frames, stack, calls, next, m.current, m.labels, input, output, diagnostics, m.statistics,
        m.executed⟩ := ⟨rfl, rfl, rfl, rfl⟩
  cases h : i.opcode with
  | move => simp [step, h, move, same]
  | createFrame | pushFrame | popFrame => simp [step, h, same]
  | declare => simp [step, h, declare, same]
  | call => simp [step, h, call, ensures_branchTarget, same]
  | ret => simp [step, h, same]
  | push => simp [step, h, pushSymbol, same]
  | pop => simp [step, h, pop, same]
  | clear => simp [step, h, same]
  | binary form op =>
    cases form <;> simp [step, h, binary, twoOperands, store, same]
  | unary form op =>
    cases form <;> simp [step, h, unary, oneOperand, store, same]
  | read => simp [step, h, read, same]
  | write => simp [step, h, write, same]
  | concat | getChar => simp [step, h, binary, twoOperands, store, same]
  | length => simp [step, h, unary, oneOperand, store, same]
  | setChar => simp [step, h, setChar, same]
  | kindOf => simp [step, h, kindOf, same]
  | label => simp [step, h, SameBooks.refl]
  | jump => simp [step, h, jump, ensures_branchTarget, same]
  | jumpIf form whenEqual =>
    cases form <;> simp [step, h, jumpIf, twoOperands, ensures_branchTarget, same]
  | exit => simp [step, h, exit, same]
  | print => simp [step, h, print, same]
  | dump => simp [step, h, breakpoint, same]

def dispatched (m : Machine Out Diag) : Machine Out Diag :=
  { m with current := m.next, next := m.next + 1 }

/-- The machine that the result of an instruction leads to, and the end of the run if it ends
here. -/
def settle (i : Instruction) : EStateM.Result Fault (Machine Out Diag) (Option Halt) →
    Machine Out Diag × Option (Except RuntimeError Halt)
  | .ok halt m => (m.account i, halt.map .ok)
  | .error fault m => (m, some (.error ⟨m.current + 1, fault⟩))

theorem advance_eq_settle {i : Instruction} (found : p.instructions[m.next]? = some i) :
    advance p m = settle i ((step i).run m.dispatched) := by
  simp only [advance, found, dispatched]
  cases (step i).run { m with current := m.next, next := m.next + 1 } <;> rfl

inductive Advances (p : Program) (m : Machine Out Diag) :
    Machine Out Diag → Option (Except RuntimeError Halt) → Prop
  | finished : p.instructions[m.next]? = none → Advances p m m (some (.ok .finished))
  | continued {i : Instruction} {done : Machine Out Diag} :
      p.instructions[m.next]? = some i → (step i).run m.dispatched = .ok none done →
        Advances p m (done.account i) none
  | exited {i : Instruction} {halt : Halt} {done : Machine Out Diag} :
      p.instructions[m.next]? = some i → (step i).run m.dispatched = .ok (some halt) done →
        Advances p m (done.account i) (some (.ok halt))
  | failed {i : Instruction} {fault : Fault} {after : Machine Out Diag} :
      p.instructions[m.next]? = some i → (step i).run m.dispatched = .error fault after →
        Advances p m after (some (.error ⟨m.next + 1, fault⟩))

theorem advances_of_advance {result : Option (Except RuntimeError Halt)}
    (h : advance p m = (after, result)) : Advances p m after result := by
  unfold advance at h
  cases found : p.instructions[m.next]? with
  | none =>
    simp only [found, Prod.mk.injEq] at h
    obtain ⟨rfl, rfl⟩ := h
    exact .finished found
  | some i =>
    simp only [found] at h
    split at h
    · rename_i halt done ok
      obtain ⟨rfl, rfl⟩ := Prod.mk.inj h
      cases halt with
      | none => exact .continued found ok
      | some halt => exact .exited found ok
    · rename_i fault stopped error
      obtain ⟨rfl, rfl⟩ := Prod.mk.inj h
      rw [((step_books i _).of_error error).current]
      exact .failed found error

abbrev Steps (p : Program) : Machine Out Diag → Machine Out Diag → Prop :=
  Relation.ReflTransGen fun m after => advance p m = (after, none)

theorem Steps.labels (steps : Steps p m after) : after.labels = m.labels := by
  induction steps with
  | refl => rfl
  | tail _ last ih =>
    cases advances_of_advance last with
    | continued _ ok => exact ((step_books _ _).of_ok ok).labels.trans ih

theorem run_eq_some {result : Except RuntimeError Halt}
    (h : run p limit m = (after, some result)) :
    ∃ last, Steps p m last ∧ advance p last = (after, some result) := by
  induction limit generalizing m with
  | zero => simp [run] at h
  | succ limit ih =>
    rw [run] at h
    split at h
    · rename_i next goes
      obtain ⟨last, steps, ends⟩ := ih h
      exact ⟨last, .head goes steps, ends⟩
    · rename_i stopped result' ends
      obtain ⟨rfl, rfl⟩ : stopped = after ∧ result' = result := by simpa using h
      exact ⟨m, .refl, ends⟩

@[simp] theorem flush_error (m : Machine Out Diag) (e : RuntimeError) :
    (m.flush (.error e)).2 = .error e := rfl

theorem flush_ok (m : Machine Out Diag) (halt : Halt) :
    (m.flush (.ok halt)).2 = .ok halt ∨
      ∃ text, (m.flush (.ok halt)).2 = .error ⟨m.current + 1, .io text⟩ := by
  rcases first : Sink.flush m.output with ⟨output, _ | text⟩ <;>
    rcases second : Sink.flush m.diagnostics with ⟨diagnostics, _ | text⟩ <;>
      simp [flush, first, second]

theorem execute_of_duplicate {repeated : DuplicateLabel} (limit : Nat)
    (table : p.labels = .error repeated) :
    execute p limit m =
      ((m.flush (.error ⟨repeated.position, .duplicateLabel repeated.name⟩)).1,
        some (.error ⟨repeated.position, .duplicateLabel repeated.name⟩)) := by
  have refused := Program.decodeLabels_eq_error.2 ⟨repeated, table, rfl⟩
  rw [execute, refused]
  rfl

theorem execute_of_labels {labels : LabelTable} (table : p.labels = .ok labels) :
    execute p limit m =
      match run p limit { m with labels } with
      | (after, none) => (after, none)
      | (after, some result) => ((after.flush result).1, some (after.flush result).2) := by
  rw [execute, Program.decodeLabels_eq_ok.2 table]
  rfl

theorem execute_eq_some {result : Except RuntimeError Halt}
    (h : execute p limit m = (after, some result)) :
    (∃ repeated, p.labels = .error repeated ∧
      result = .error ⟨repeated.position, .duplicateLabel repeated.name⟩) ∨
    ∃ labels last stopped final, p.labels = .ok labels ∧ Steps p { m with labels } last ∧
      advance p last = (stopped, some final) ∧ stopped.flush final = (after, result) := by
  cases table : p.labels with
  | error repeated =>
    rw [execute_of_duplicate limit table] at h
    obtain ⟨-, returned⟩ := Prod.mk.inj h
    exact .inl ⟨repeated, rfl, (Option.some.inj returned).symm⟩
  | ok labels =>
    rw [execute_of_labels table] at h
    split at h
    · simp at h
    · rename_i stopped final ran
      obtain ⟨last, steps, ends⟩ := run_eq_some ran
      obtain ⟨rfl, returned⟩ := Prod.mk.inj h
      obtain rfl := Option.some.inj returned
      exact .inr ⟨labels, last, stopped, final, rfl, steps, ends, rfl⟩

theorem execute_error {e : RuntimeError} (h : execute p limit m = (after, some (.error e))) :
    (∃ repeated, p.labels = .error repeated ∧
      e = ⟨repeated.position, .duplicateLabel repeated.name⟩) ∨
    (∃ labels last stopped, p.labels = .ok labels ∧ Steps p { m with labels } last ∧
      advance p last = (stopped, some (.error e))) ∨
    ∃ text, e.fault = .io text := by
  rcases execute_eq_some h with
    ⟨repeated, table, same⟩ | ⟨labels, last, stopped, final, table, steps, ends, flushed⟩
  · exact .inl ⟨repeated, table, Except.error.inj same⟩
  · have returned := congrArg Prod.snd flushed
    cases final with
    | error e' =>
      obtain rfl := Except.error.inj returned
      exact .inr (.inl ⟨labels, last, stopped, table, steps, ends⟩)
    | ok halt =>
      rcases flush_ok stopped halt with kept | ⟨text, failed⟩
      · cases kept.symm.trans returned
      · obtain rfl := Except.error.inj (failed.symm.trans returned)
        exact .inr (.inr ⟨text, rfl⟩)

/-- Successive executions on one machine, what they return and the machine they leave. -/
inductive Session (p : Program) :
    Machine Out Diag → List (Except RuntimeError Halt) → Machine Out Diag → Prop
  | done {m : Machine Out Diag} : Session p m [] m
  | call {m next after : Machine Out Diag} {limit : Nat} {result : Except RuntimeError Halt}
      {results : List (Except RuntimeError Halt)} :
      execute p limit m = (next, some result) → Session p next results after →
        Session p m (result :: results) after

theorem Session.returned {results : List (Except RuntimeError Halt)}
    {result : Except RuntimeError Halt} (session : Session p m results after)
    (returned : result ∈ results) :
    ∃ (start : Machine Out Diag) (limit : Nat) (stopped : Machine Out Diag),
      execute p limit start = (stopped, some result) := by
  induction session with
  | done => cases returned
  | call executed _ ih =>
    cases returned with
    | head => exact ⟨_, _, _, executed⟩
    | tail _ later => exact ih later

end IppCode.Machine
