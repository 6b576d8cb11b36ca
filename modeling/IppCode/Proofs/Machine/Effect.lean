import IppCode.Proofs.Frames.Slot
import IppCode.Proofs.Machine.Execution
import IppCode.Proofs.Machine.Operand

/-!
# What a successful instruction does

The parts of a machine are the frames, the operand stack, the pointer with the call stack, the input
and the sinks. For each of them the operation code decides how an instruction that succeeds can
change it (`step_effect`).
-/

namespace IppCode

/-- Instructions that leave a result in the variable which is their first argument. -/
def Opcode.stores : Opcode → Bool
  | .move | .pop | .binary .arguments _ | .unary .arguments _ | .read | .concat | .length
  | .getChar | .setChar | .kindOf => true
  | _ => false

def Instruction.FramesEffect (i : Instruction) (fs frames : Frames) : Prop :=
  match i.opcode with
  | .createFrame => frames = { fs with temporary := some .empty }
  | .pushFrame =>
    ∃ f, fs.temporary = some f ∧ frames = { fs with locals := f :: fs.locals, temporary := none }
  | .popFrame =>
    ∃ f outer, fs.locals = f :: outer ∧ frames = { fs with locals := outer, temporary := some f }
  | .declare => ∃ v, i.arguments[0]? = some (.var v) ∧ fs.Adds v frames
  | opcode =>
    if opcode.stores then ∃ v, i.arguments[0]? = some (.var v) ∧ fs.Sets v frames
    else frames = fs

theorem Instruction.framesEffect_of_stores {i : Instruction} {fs frames : Frames}
    (stores : i.opcode.stores = true) :
    i.FramesEffect fs frames ↔ ∃ v, i.arguments[0]? = some (.var v) ∧ fs.Sets v frames := by
  unfold FramesEffect
  split <;> simp_all [Opcode.stores]

def Opcode.StackEffect (opcode : Opcode) (stack values : List Value) : Prop :=
  match opcode with
  | .push => ∃ x, values = x :: stack
  | .pop => ∃ x, stack = x :: values
  | .binary .stack _ => ∃ a b z rest, stack = b :: a :: rest ∧ values = z :: rest
  | .unary .stack _ => ∃ a z rest, stack = a :: rest ∧ values = z :: rest
  | .jumpIf .stack _ => ∃ a b, stack = b :: a :: values
  | .clear => values = []
  | _ => values = stack

namespace Machine

variable {Out Diag : Type}

/-- The pointer has moved past the instruction when it is executed. -/
def ControlEffect (opcode : Opcode) (m after : Machine Out Diag) : Prop :=
  match opcode with
  | .call => (∃ name, m.labels.find? name = some after.next) ∧ after.calls = m.next :: m.calls
  | .ret => m.calls = after.next :: after.calls
  | .jump => (∃ name, m.labels.find? name = some after.next) ∧ after.calls = m.calls
  | .jumpIf _ _ =>
    (after.next = m.next ∨ ∃ name, m.labels.find? name = some after.next) ∧ after.calls = m.calls
  | _ => after.next = m.next ∧ after.calls = m.calls

structure Effect (i : Instruction) (m after : Machine Out Diag) : Prop extends
    SameBooks m after where
  frames : i.FramesEffect m.frames after.frames
  stack : i.opcode.StackEffect m.stack after.stack
  control : ControlEffect i.opcode m after
  input : i.opcode ≠ .read → after.input = m.input
  output : i.opcode ≠ .write → after.output = m.output
  diagnostics : i.opcode ≠ .print → i.opcode ≠ .dump → after.diagnostics = m.diagnostics

variable {i : Instruction} {m after : Machine Out Diag}

theorem Effect.of_memory {frames : Frames} {stack : List Value} {calls : List Nat} {next : Nat}
    (changed : i.FramesEffect m.frames frames) (moved : i.opcode.StackEffect m.stack stack)
    (onward : ControlEffect i.opcode m { m with frames, stack, calls, next }) :
    Effect i m { m with frames, stack, calls, next } where
  current := rfl
  labels := rfl
  statistics := rfl
  executed := rfl
  frames := changed
  stack := moved
  control := onward
  input _ := rfl
  output _ := rfl
  diagnostics _ _ := rfl

section
variable {v : Variable} {x : Value} {left right kinds : List Kind}

theorem framesEffect_of_write {frames : Frames} (stores : i.opcode.stores = true)
    (destination : i.variableAt 0 = .ok v) (written : m.frames.write v x = .ok frames) :
    i.FramesEffect m.frames frames :=
  (Instruction.framesEffect_of_stores stores).2
    ⟨v, Instruction.variableAt_eq_ok.1 destination, .of_write written⟩

theorem assign_effect (stores : i.opcode.stores = true) (apart : i.opcode ≠ .pop)
    (destination : i.variableAt 0 = .ok v) :
    Ensures (assign v x) m (fun _ after => Effect i m after) (fun _ _ => True) := by
  simp only [ensures_assign, implies_true, and_true]
  intro frames written
  refine .of_memory (framesEffect_of_write stores destination written) ?_ ?_
  · unfold Opcode.StackEffect
    split <;> simp_all [Opcode.stores]
  · unfold ControlEffect
    split <;> simp_all [Opcode.stores]

theorem store_effect (stores : i.opcode.stores = true) (apart : i.opcode ≠ .pop) :
    Ensures (store i .arguments x) m (fun _ after => Effect i m after) (fun _ _ => True) := by
  simp only [store, ensures_bind, ensures_lift, implies_true, and_true]
  intro v destination
  exact assign_effect stores apart destination

theorem binary_effect {f : Value → Value → Except Fault Value} (stores : i.opcode.stores = true)
    (apart : i.opcode ≠ .pop) :
    Ensures (binary i .arguments left right f) m (fun _ after => Effect i m after)
      (fun _ _ => True) := by
  simp only [binary, twoOperands, ensures_bind, ensures_view, ensures_pure, ensures_lift,
    implies_true, and_true]
  intro a _ b _ z _
  exact store_effect stores apart

theorem unary_effect {f : Value → Except Fault Value} (stores : i.opcode.stores = true)
    (apart : i.opcode ≠ .pop) :
    Ensures (unary i .arguments kinds f) m (fun _ after => Effect i m after)
      (fun _ _ => True) := by
  simp only [unary, oneOperand, ensures_bind, ensures_view, ensures_lift, implies_true, and_true]
  intro a _ z _
  exact store_effect stores apart

end

variable [Sink Out] [Sink Diag]

theorem step_effect (i : Instruction) (m : Machine Out Diag) :
    Ensures (step i) m (fun _ after => Effect i m after) (fun _ _ => True) := by
  obtain ⟨opcode, order, arguments⟩ := i
  cases opcode with
  | move =>
    simp only [step, move, ensures_proceed, ensures_bind, ensures_lift, ensures_view,
      implies_true, and_true]
    intro v destination x _
    exact assign_effect rfl (by simp) destination
  | createFrame => exact Effect.of_memory rfl rfl ⟨rfl, rfl⟩
  | pushFrame =>
    simp only [step, ensures_proceed, ensures_reframe, implies_true, and_true]
    intro frames pushed
    exact .of_memory (Frames.push_eq_ok.1 pushed) rfl ⟨rfl, rfl⟩
  | popFrame =>
    simp only [step, ensures_proceed, ensures_reframe, implies_true, and_true]
    intro frames popped
    exact .of_memory (Frames.pop_eq_ok.1 popped) rfl ⟨rfl, rfl⟩
  | declare =>
    simp only [step, declare, ensures_proceed, ensures_bind, ensures_lift, ensures_reframe,
      implies_true, and_true]
    intro v destination frames declared
    have added : m.frames.Adds v frames := .of_declare declared
    exact .of_memory ⟨v, Instruction.variableAt_eq_ok.1 destination, added⟩ rfl ⟨rfl, rfl⟩
  | call =>
    simp only [step, call, ensures_proceed, ensures_bind, ensures_branchTarget, ensures_modify,
      implies_true, and_true]
    intro name _ position found
    exact .of_memory rfl rfl ⟨⟨name, found⟩, rfl⟩
  | ret =>
    simp only [step, ensures_proceed, ensures_ret, implies_true, and_true]
    intro position rest returns
    exact .of_memory rfl rfl returns
  | push =>
    simp only [step, pushSymbol, ensures_proceed, ensures_bind, ensures_view, ensures_push,
      implies_true, and_true]
    intro x _
    exact .of_memory rfl ⟨x, rfl⟩ ⟨rfl, rfl⟩
  | pop =>
    simp only [step, pop, ensures_proceed, ensures_bind, ensures_lift, ensures_takeOne,
      ensures_assign, implies_true, and_true]
    intro v destination x rest top frames written
    exact .of_memory (framesEffect_of_write rfl destination written) ⟨x, top⟩ ⟨rfl, rfl⟩
  | clear => exact Effect.of_memory rfl rfl ⟨rfl, rfl⟩
  | binary form op =>
    cases form with
    | arguments =>
      rw [step, ensures_proceed]
      exact binary_effect rfl (by simp)
    | stack =>
      simp only [step, binary, twoOperands, store, ensures_proceed, ensures_bind, ensures_takeTwo,
        ensures_lift, ensures_pure, ensures_push, implies_true, and_true]
      intro a b rest top _ _ _ _ z _
      exact .of_memory rfl ⟨a, b, z, rest, top, rfl⟩ ⟨rfl, rfl⟩
  | unary form op =>
    cases form with
    | arguments =>
      rw [step, ensures_proceed]
      exact unary_effect rfl (by simp)
    | stack =>
      simp only [step, unary, oneOperand, store, ensures_proceed, ensures_bind, ensures_takeOne,
        ensures_lift, ensures_pure, ensures_push, implies_true, and_true]
      intro a rest top _ _ z _
      exact .of_memory rfl ⟨a, z, rest, top, rfl⟩ ⟨rfl, rfl⟩
  | read =>
    simp only [step, read, ensures_proceed, ensures_bind, ensures_lift, ensures_readLine,
      ensures_assign, implies_true, and_true]
    intro v destination kind _ input line _ frames written
    have memory : Effect _ m { m with frames } :=
      .of_memory (framesEffect_of_write rfl destination written) rfl ⟨rfl, rfl⟩
    exact { memory with input := fun other => absurd rfl other }
  | write =>
    simp only [step, write, ensures_proceed, ensures_bind, ensures_view, ensures_writeOutput,
      implies_true, and_true]
    intro x _ output _
    have memory : Effect ⟨.write, order, arguments⟩ m m := .of_memory rfl rfl ⟨rfl, rfl⟩
    exact { memory with output := fun other => absurd rfl other }
  | concat | getChar =>
    rw [step, ensures_proceed]
    exact binary_effect rfl (by simp)
  | length =>
    rw [step, ensures_proceed]
    exact unary_effect rfl (by simp)
  | setChar =>
    simp only [step, setChar, ensures_proceed, ensures_bind, ensures_lift, ensures_view,
      implies_true, and_true]
    intro v destination _ _ _ _ _ _ _ _ _ _ _ _ z _
    exact assign_effect rfl (by simp) destination
  | kindOf =>
    simp only [step, kindOf, ensures_proceed, ensures_bind, ensures_lift, ensures_view,
      implies_true, and_true]
    intro v destination name _
    exact assign_effect rfl (by simp) destination
  | label => exact Effect.of_memory rfl rfl ⟨rfl, rfl⟩
  | jump =>
    simp only [step, jump, ensures_proceed, ensures_bind, ensures_branchTarget, ensures_goTo,
      implies_true, and_true]
    intro name _ position found
    exact .of_memory rfl rfl ⟨⟨name, found⟩, rfl⟩
  | jumpIf form whenEqual =>
    cases form with
    | arguments =>
      simp only [step, jumpIf, twoOperands, ensures_proceed, ensures_bind, ensures_branchTarget,
        ensures_view, ensures_lift, ensures_pure, ensures_ite, ensures_goTo, implies_true, and_true]
      intro name _ position found _ _ _ _ equal _
      exact ⟨fun _ => .of_memory rfl rfl ⟨.inr ⟨name, found⟩, rfl⟩,
        fun _ => .of_memory rfl rfl ⟨.inl rfl, rfl⟩⟩
    | stack =>
      simp only [step, jumpIf, twoOperands, ensures_proceed, ensures_bind, ensures_branchTarget,
        ensures_takeTwo, ensures_lift, ensures_pure, ensures_ite, ensures_goTo, implies_true,
        and_true]
      intro name _ position found a b rest top _ _ _ _ equal _
      exact ⟨fun _ => .of_memory rfl ⟨a, b, top⟩ ⟨.inr ⟨name, found⟩, rfl⟩,
        fun _ => .of_memory rfl ⟨a, b, top⟩ ⟨.inl rfl, rfl⟩⟩
  | exit =>
    simp only [step, exit, ensures_bind, ensures_view, ensures_lift, ensures_dite, ensures_pure,
      ensures_throw, implies_true, and_true]
    intro a _ code _ _
    exact .of_memory rfl rfl ⟨rfl, rfl⟩
  | print =>
    simp only [step, print, ensures_proceed, ensures_bind, ensures_view, ensures_writeDiagnostics,
      implies_true, and_true]
    intro x _ diagnostics _
    have memory : Effect ⟨.print, order, arguments⟩ m m := .of_memory rfl rfl ⟨rfl, rfl⟩
    exact { memory with diagnostics := fun other => absurd rfl other }
  | dump =>
    simp only [step, breakpoint, ensures_proceed, ensures_bind, ensures_get,
      ensures_writeDiagnostics, implies_true, and_true]
    intro diagnostics _
    have memory : Effect ⟨.dump, order, arguments⟩ m m := .of_memory rfl rfl ⟨rfl, rfl⟩
    exact { memory with diagnostics := fun _ other => absurd rfl other }

omit [Sink Out] [Sink Diag] in
theorem proceed_effect {x : Action Out Diag Unit} :
    Ensures (proceed x) m (fun halt _ => halt = none) (fun _ _ => True) := by
  rw [ensures_proceed]
  unfold Ensures
  cases x.run m <;> trivial

theorem step_halts {halt : Halt} (ok : (step i).run m = .ok (some halt) after) :
    i.opcode = .exit ∧ after = m ∧ ∃ (n : Int64) (code : Fin 50),
      m.frames.symbol i 0 = .ok (.int n) ∧ (code : Int) = n.toInt ∧ halt = .exit code := by
  have goes (x : Action Out Diag Unit) (ok : (proceed x).run m = .ok (some halt) after) : False := by
    cases (proceed_effect (x := x)).of_ok ok
  cases h : i.opcode with
  | exit =>
    have ends : Ensures (step i) m (fun result done => done = m ∧ ∃ (n : Int64) (code : Fin 50),
        m.frames.symbol i 0 = .ok (.int n) ∧ (code : Int) = n.toInt ∧ result = some (.exit code))
        (fun _ _ => True) := by
      simp only [step, h, exit, ensures_bind, ensures_view, ensures_lift, ensures_dite, ensures_pure,
        ensures_throw, implies_true, and_true]
      intro a operand n number range
      obtain rfl : a = .int n := by
        cases a <;> cases number
        rfl
      refine ⟨trivial, n, ⟨n.toInt.toNat, by omega⟩, (Frames.operand_eq_ok.1 operand).1, ?_, rfl⟩
      exact Int.toNat_of_nonneg range.1
    obtain ⟨same, n, code, symbol, number, result⟩ := ends.of_ok ok
    exact ⟨rfl, same, n, code, symbol, number, Option.some.inj result⟩
  | _ =>
    simp only [step, h] at ok
    exact (goes _ ok).elim

end Machine

end IppCode
