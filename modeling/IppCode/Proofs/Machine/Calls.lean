import IppCode.Proofs.Labels
import IppCode.Proofs.Machine.Effect
import IppCode.Proofs.Machine.Failure
import IppCode.Proofs.Machine.History

/-!
# Calls and returns

The call stack changes by what a call pushes and a return pops (`Turn.calls`). So every entry is the
position after a call, and what a call pushed lies on the stack until the return that leaves the
stack as deep as it was before the call (`calls_bracketed`).
-/

namespace IppCode.Machine

variable {Out Diag : Type} [Sink Out] [Sink Diag] {p : Program} {m after : Machine Out Diag}
  {s t : Moment Out Diag}

/-- The ways in which the call stack changes. -/
inductive CallsTurn (p : Program) : Moment Out Diag → Machine Out Diag → Prop
  | kept {s : Moment Out Diag} {after : Machine Out Diag} :
      after.calls = s.machine.calls → CallsTurn p s after
  | pushed {m after : Machine Out Diag} {i : Instruction} :
      p.instructions[m.next]? = some i → i.opcode = .call → after.calls = (m.next + 1) :: m.calls →
        CallsTurn p (.running m) after
  | popped {m after : Machine Out Diag} {i : Instruction} :
      p.instructions[m.next]? = some i → i.opcode = .ret → m.calls = after.next :: after.calls →
        CallsTurn p (.running m) after

theorem Turn.calls (turn : Turn p s after) : CallsTurn p s after := by
  cases turn with
  | rested => exact .kept rfl
  | executed found ok =>
    have control := ((step_effect _ _).of_ok ok).control
    rename_i i halt output diagnostics
    unfold ControlEffect at control
    split at control
    · rename_i call
      exact .pushed found call control.2
    · rename_i ret
      exact .popped found ret control
    · exact .kept control.2
    · exact .kept control.2
    · exact .kept control.2
  | failed found error => exact .kept ((step_spares _ _).of_error error).calls

def ReturnsTo (p : Program) (position : Nat) : Prop :=
  1 ≤ position ∧ position ≤ p.instructions.size ∧
    ∃ i, p.instructions[position - 1]? = some i ∧ i.opcode = .call

structure Anchored (p : Program) (m : Machine Out Diag) : Prop where
  next : m.next ≤ p.instructions.size
  calls : ∀ position ∈ m.calls, ReturnsTo p position

theorem Turn.next_le (turn : Turn p s after) (labelled : s.Labelled p)
    (anchored : Anchored p s.machine) : after.next ≤ p.instructions.size := by
  cases turn with
  | rested => exact anchored.next
  | @executed m done i _ _ _ found ok =>
    have inside : m.next < p.instructions.size := (Array.getElem?_eq_some_iff.1 found).1
    have target {name : String} {position : Nat}
        (declared : m.dispatched.labels.find? name = some position) :
        position ≤ p.instructions.size := by
      obtain ⟨j, present, -⟩ := Program.declared_of_find? labelled declared
      exact Nat.le_of_lt (Array.getElem?_eq_some_iff.1 present).1
    have control := ((step_effect _ _).of_ok ok).control
    unfold ControlEffect at control
    split at control
    · obtain ⟨⟨name, declared⟩, -⟩ := control
      exact target declared
    · exact (anchored.calls _ (control ▸ List.mem_cons_self)).2.1
    · obtain ⟨⟨name, declared⟩, -⟩ := control
      exact target declared
    · rcases control.1 with onward | ⟨name, declared⟩
      · exact onward ▸ inside
      · exact target declared
    · exact control.1 ▸ inside
  | @failed m stopped i _ _ _ found error =>
    have inside : m.next < p.instructions.size := (Array.getElem?_eq_some_iff.1 found).1
    have onward : stopped.next = m.next + 1 := ((step_spares _ _).of_error error).next
    exact onward ▸ inside

theorem Turn.anchored (turn : Turn p s after) (labelled : s.Labelled p)
    (anchored : Anchored p s.machine) : Anchored p after := by
  refine ⟨turn.next_le labelled anchored, ?_⟩
  cases turn.calls with
  | kept same => exact same ▸ anchored.calls
  | @pushed m _ i found call same =>
    have inside : m.next < p.instructions.size := (Array.getElem?_eq_some_iff.1 found).1
    rw [same]
    exact List.forall_mem_cons.2 ⟨⟨by omega, inside, i, found, call⟩, anchored.calls⟩
  | popped _ _ same =>
    exact fun position later => anchored.calls position (same ▸ List.mem_cons_of_mem _ later)

theorem History.anchored {input : Input} {output : Out} {diagnostics : Diag} {counting : Bool}
    (history : History p (.idle (initial input output diagnostics counting)) s) :
    Anchored p s.machine := by
  induction history with
  | refl => exact ⟨Nat.zero_le _, nofun⟩
  | tail earlier event ih => exact event.turn.anchored (History.labelled earlier) ih

/-- Events after which the call stack does not have the depth. -/
abbrev Away (p : Program) (depth : Nat) : Moment Out Diag → Moment Out Diag → Prop :=
  Relation.ReflTransGen fun s t => Event p s t ∧ t.machine.calls.length ≠ depth

theorem Away.suffix {position : Nat} {calls : List Nat} (away : Away p calls.length s t)
    (below : (position :: calls) <:+ s.machine.calls) :
    (position :: calls) <:+ t.machine.calls := by
  induction away with
  | refl => exact below
  | tail _ last ih =>
    obtain ⟨event, depth⟩ := last
    cases event.turn.calls with
    | kept same => exact same ▸ ih
    | pushed _ _ same => exact same ▸ ih.trans (List.suffix_cons _ _)
    | popped _ _ same =>
      -- Were the whole stack what the call left, the return would lead back to the depth.
      rw [Moment.machine, same, List.suffix_cons_iff] at ih
      rcases ih with whole | later
      · rw [List.cons.injEq] at whole
        exact absurd (congrArg List.length whole.2).symm depth
      · exact later

theorem Event.returns {position : Nat} {calls : List Nat} (event : Event p s t)
    (below : (position :: calls) <:+ s.machine.calls)
    (back : t.machine.calls.length = calls.length) :
    t.machine.calls = calls ∧ t.machine.next = position ∧
      ∃ m i, s = .running m ∧ p.instructions[m.next]? = some i ∧ i.opcode = .ret := by
  have deep : calls.length + 1 ≤ s.machine.calls.length := below.length_le
  cases event.turn.calls with
  | kept same =>
    rw [same] at back
    omega
  | pushed _ _ same =>
    rw [same, List.length_cons] at back
    rw [Moment.machine] at deep
    omega
  | @popped m _ i found ret same =>
    rw [Moment.machine, same] at below
    have whole := below.eq_of_length (by simp [back])
    rw [List.cons.injEq] at whole
    exact ⟨whole.2.symm, whole.1.symm, m, i, rfl, found, ret⟩

/-- Wherever successive executions get, the pointer is in the program or at its end, and the call
stack holds positions after calls. A call and the first event that brings the call stack back to its
depth are a pair: that event is a return, to right after the call and with the same stack. -/
theorem calls_bracketed {input : Input} {output : Out} {diagnostics : Diag} {counting : Bool}
    (reached : Sessions p (initial input output diagnostics counting) s) :
    s.machine.next ≤ p.instructions.size ∧
    (∀ position ∈ s.machine.calls, 1 ≤ position ∧ position ≤ p.instructions.size ∧
      ∃ i, p.instructions[position - 1]? = some i ∧ i.opcode = .call) ∧
    ∀ m called deep back i, s = .running m → p.instructions[m.next]? = some i →
      i.opcode = .call → advance p m = (called, none) →
      Away p m.calls.length (.running called) deep → Event p deep back →
      back.machine.calls.length = m.calls.length →
      back.machine.calls = m.calls ∧ back.machine.next = m.next + 1 ∧
        ∃ last j, deep = .running last ∧ p.instructions[last.next]? = some j ∧ j.opcode = .ret := by
  have anchored := (history_iff.2 reached).anchored
  refine ⟨anchored.next, anchored.calls, ?_⟩
  intro m called deep back i _ found call executed away event depth
  have pushed : called.calls = (m.next + 1) :: m.calls := by
    cases advances_of_advance executed with
    | continued other ok =>
      obtain rfl := Option.some.inj (found.symm.trans other)
      have control := ((step_effect _ _).of_ok ok).control
      rw [call] at control
      exact control.2
  have below : ((m.next + 1) :: m.calls) <:+ called.calls := pushed ▸ List.suffix_refl _
  exact event.returns (away.suffix below) depth

/-- The callee fails on an empty operand stack, and a second execution goes on in it. -/
theorem calls_bracketed_resumed :
    ∃ (p : Program) (m called : Machine Buffer Buffer) (deep back : Moment Buffer Buffer),
      p = ⟨#[⟨.call, 1, [.label "f"]⟩, ⟨.clear, 2, []⟩, ⟨.label, 3, [.label "f"]⟩,
        ⟨.unary .stack .not, 4, []⟩, ⟨.ret, 5, []⟩]⟩ ∧
      Sessions p (initial ⟨[], none⟩ Buffer.unbounded Buffer.unbounded false) (.running m) ∧
      m.next = 0 ∧ advance p m = (called, none) ∧ called.calls = [1] ∧
      Away p m.calls.length (.running called) deep ∧ Event p deep back ∧
      back.machine.calls = m.calls ∧ back.machine.next = 1 := by
  let p : Program := ⟨#[⟨.call, 1, [.label "f"]⟩, ⟨.clear, 2, []⟩, ⟨.label, 3, [.label "f"]⟩,
    ⟨.unary .stack .not, 4, []⟩, ⟨.ret, 5, []⟩]⟩
  let start : Machine Buffer Buffer :=
    initial ⟨[], none⟩ Buffer.unbounded Buffer.unbounded false
  let m : Machine Buffer Buffer := { start with labels := ⟨[("f", 2)]⟩ }
  let failed := (advance p (advance p (advance p m).1).1).1
  let fault : RuntimeError := ⟨4, .stackUnderflow (.unary .stack .not) 1 0⟩
  let resumed : Machine Buffer Buffer :=
    { (failed.flush (.error fault)).1 with labels := ⟨[("f", 2)]⟩ }
  have reached : Sessions p start (.running m) := ⟨[], start, _, 0, .done, rfl, rfl⟩
  have calls : advance p m = ((advance p m).1, none) := rfl
  have enters : Event p (.running (advance p m).1) (.running (advance p (advance p m).1).1) :=
    .continued rfl
  have fails : Event p (.running (advance p (advance p m).1).1)
      (.idle (failed.flush (.error fault)).1) := .ended rfl
  have resumes : Event p (.idle (failed.flush (.error fault)).1) (.running resumed) := .begun rfl
  have away : Away p m.calls.length (.running (advance p m).1) (.running resumed) :=
    .tail (.tail (.single ⟨enters, by decide⟩) ⟨fails, by decide⟩) ⟨resumes, by decide⟩
  have returns : Event p (.running resumed) (.running (advance p resumed).1) := .continued rfl
  have bracketed :=
    (calls_bracketed reached).2.2 m _ _ _ _ rfl rfl rfl calls away returns rfl
  exact ⟨p, m, _, _, _, rfl, reached, rfl, calls, rfl, away, returns, bracketed.1, bracketed.2.1⟩

end IppCode.Machine
