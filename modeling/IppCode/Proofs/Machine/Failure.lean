import IppCode.Proofs.Machine.Execution
import IppCode.Proofs.Machine.Operand

/-!
# What a failing instruction leaves behind

An instruction that fails has changed nothing but the operands it took from the stack and what it
read or wrote. Most instructions fail before they change anything (`step_intact`). Those that work
on the operand stack take all their operands at once, and fail after that without pushing anything.
-/

namespace IppCode

def Opcode.operands : Opcode → Nat
  | .pop | .unary .stack _ => 1
  | .binary .stack _ | .jumpIf .stack _ => 2
  | _ => 0

def Opcode.transfers : Opcode → Bool
  | .read | .write | .print | .dump => true
  | _ => false

namespace Machine

variable {Out Diag : Type}

/-- Whether an instruction gets to its operands on the stack: what it looks at before the depth of
the stack is in order, and the stack is deep enough. -/
def findsOperands (m : Machine Out Diag) (i : Instruction) : Bool :=
  decide (i.opcode.operands ≤ m.stack.length) &&
    match i.opcode, i.arguments[0]? with
    | .pop, some (Argument.var _) => true
    | .pop, _ => false
    | .jumpIf .stack _, some (Argument.label name) => (m.labels.find? name).isSome
    | .jumpIf .stack _, _ => false
    | _, _ => true

structure Spared (i : Instruction) (m after : Machine Out Diag) : Prop extends
    SameBooks m after where
  frames : after.frames = m.frames
  stack : after.stack = if m.findsOperands i then m.stack.drop i.opcode.operands else m.stack
  calls : after.calls = m.calls
  next : after.next = m.next
  input : ¬ (i.opcode = .read ∧ (∃ v, i.arguments[0]? = some (.var v)) ∧
    ∃ k, i.arguments[1]? = some (.kind k)) → after.input = m.input
  output : i.opcode ≠ .write → after.output = m.output
  diagnostics : i.opcode ≠ .print → i.opcode ≠ .dump → after.diagnostics = m.diagnostics

variable {i : Instruction} {m : Machine Out Diag}

theorem Spared.refl (untaken : i.opcode.operands = 0 ∨ m.findsOperands i = false) :
    Spared i m m := by
  have stack : m.stack = if m.findsOperands i then m.stack.drop i.opcode.operands else m.stack := by
    rcases untaken with none | missing
    · simp [none]
    · simp [missing]
  exact { SameBooks.refl m with
    frames := rfl, stack, calls := rfl, next := rfl
    input := fun _ => rfl, output := fun _ => rfl, diagnostics := fun _ _ => rfl }

theorem Spared.taken {rest : List Value} (found : m.findsOperands i = true)
    (dropped : m.stack.drop i.opcode.operands = rest) : Spared i m { m with stack := rest } := by
  have stack : rest = if m.findsOperands i then m.stack.drop i.opcode.operands else m.stack := by
    simp [found, dropped]
  exact
    { current := rfl, labels := rfl, statistics := rfl, executed := rfl
      frames := rfl, stack, calls := rfl, next := rfl
      input := fun _ => rfl, output := fun _ => rfl, diagnostics := fun _ _ => rfl }

theorem takeOne_spares {opcode : Opcode} (one : i.opcode.operands = 1)
    (ready : m.findsOperands i = decide (1 ≤ m.stack.length)) :
    Ensures (takeOne opcode) m (fun _ after => Spared i m after)
      (fun _ after => Spared i m after) := by
  rw [ensures_takeOne]
  constructor
  · intro a rest top
    exact .taken (by simp [ready, top]) (by simp [one, top])
  · intro empty
    exact .refl (.inr (by simp [ready, empty]))

theorem takeTwo_spares {opcode : Opcode} (two : i.opcode.operands = 2)
    (ready : m.findsOperands i = decide (2 ≤ m.stack.length)) :
    Ensures (takeTwo opcode) m (fun _ after => Spared i m after)
      (fun _ after => Spared i m after) := by
  rw [ensures_takeTwo]
  constructor
  · intro a b rest top
    exact .taken (by simp [ready, top]) (by simp [two, top])
  · intro short
    exact .refl (.inr (by simp [ready, short]))

theorem pop_spares (h : i.opcode = .pop) :
    Ensures (pop i) m (fun _ _ => True) (fun _ after => Spared i m after) := by
  rw [pop, ensures_bind, ensures_lift]
  constructor
  · intro v ok
    have found := Instruction.variableAt_eq_ok.1 ok
    rw [ensures_bind]
    refine (takeOne_spares (by simp [h, Opcode.operands])
      (by simp [findsOperands, h, Opcode.operands, found])).mono ?_ fun _ _ spared => spared
    intro a after spared
    simp [spared]
  · intro fault error
    have misfit := Instruction.variableAt_error error
    refine .refl (.inr ?_)
    cases found : i.arguments[0]? with
    | none => simp [findsOperands, h, found]
    | some a =>
      have unfit := misfit.unfit found
      cases a <;> simp_all [findsOperands, Argument.fits]

theorem unary_spares {op : UnaryOp} {kinds : List Kind} {f : Value → Except Fault Value}
    (h : i.opcode = .unary .stack op) :
    Ensures (unary i .stack kinds f) m (fun _ _ => True) (fun _ after => Spared i m after) := by
  rw [unary, oneOperand, bind_assoc, ensures_bind]
  refine (takeOne_spares (by simp [h, Opcode.operands])
    (by simp [findsOperands, h, Opcode.operands])).mono ?_ fun _ _ spared => spared
  intro a after spared
  simp [store, spared]

theorem twoOperands_spares {left right : List Kind} (two : i.opcode.operands = 2)
    (ready : m.findsOperands i = decide (2 ≤ m.stack.length)) :
    Ensures (twoOperands i .stack left right) m (fun _ after => Spared i m after)
      (fun _ after => Spared i m after) := by
  rw [twoOperands, ensures_bind]
  refine (takeTwo_spares two ready).mono ?_ fun _ _ spared => spared
  rintro ⟨a, b⟩ after spared
  simp [spared]

theorem binary_spares {op : BinaryOp} {left right : List Kind}
    {f : Value → Value → Except Fault Value} (h : i.opcode = .binary .stack op) :
    Ensures (binary i .stack left right f) m (fun _ _ => True)
      (fun _ after => Spared i m after) := by
  rw [binary, ensures_bind]
  refine (twoOperands_spares (by simp [h, Opcode.operands])
    (by simp [findsOperands, h, Opcode.operands])).mono ?_ fun _ _ spared => spared
  rintro ⟨a, b⟩ after spared
  simp [store, spared]

theorem jumpIf_spares {whenEqual : Bool} (h : i.opcode = .jumpIf .stack whenEqual) :
    Ensures (jumpIf i .stack whenEqual) m (fun _ _ => True)
      (fun _ after => Spared i m after) := by
  have two : i.opcode.operands = 2 := by simp [h, Opcode.operands]
  rw [jumpIf, ensures_bind, ensures_branchTarget]
  constructor
  · intro name ok
    have found := Instruction.labelAt_eq_ok.1 ok
    constructor
    · intro position declared
      rw [ensures_bind]
      refine (twoOperands_spares two
        (by simp [findsOperands, h, Opcode.operands, found, declared])).mono ?_
        fun _ _ spared => spared
      rintro ⟨a, b⟩ after spared
      simp [spared]
    · intro undeclared
      exact .refl (.inr (by simp [findsOperands, h, found, undeclared]))
  · intro fault error
    have misfit := Instruction.labelAt_error error
    refine .refl (.inr ?_)
    cases found : i.arguments[0]? with
    | none => simp [findsOperands, h, found]
    | some a =>
      have unfit := misfit.unfit found
      cases a <;> simp_all [findsOperands, Argument.fits]

theorem read_spares (h : i.opcode = .read) :
    Ensures (read i) m (fun _ _ => True) (fun _ after => Spared i m after) := by
  have unread : Spared i m m := .refl (.inl (by simp [h, Opcode.operands]))
  have consumed {v : Variable} {k : Kind} (var : i.arguments[0]? = some (.var v))
      (kind : i.arguments[1]? = some (.kind k)) (input : Input) :
      Spared i m { m with input } :=
    { unread with input := fun other => absurd ⟨h, ⟨v, var⟩, k, kind⟩ other }
  simp +contextual [read, unread, Instruction.variableAt_eq_ok, Instruction.kindAt_eq_ok, consumed]

theorem write_spares [Sink Out] (h : i.opcode = .write) :
    Ensures (write i) m (fun _ _ => True) (fun _ after => Spared i m after) := by
  have unread : Spared i m m := .refl (.inl (by simp [h, Opcode.operands]))
  have written (output : Out) : Spared i m { m with output } :=
    { unread with output := fun other => absurd h other }
  simp [write, unread, written]

theorem print_spares [Sink Diag] (h : i.opcode = .print) :
    Ensures (print i) m (fun _ _ => True) (fun _ after => Spared i m after) := by
  have unread : Spared i m m := .refl (.inl (by simp [h, Opcode.operands]))
  have written (diagnostics : Diag) : Spared i m { m with diagnostics } :=
    { unread with diagnostics := fun other => absurd h other }
  simp [print, unread, written]

theorem breakpoint_spares [Sink Diag] (h : i.opcode = .dump) :
    Ensures (breakpoint i) m (fun _ _ => True) (fun _ after => Spared i m after) := by
  have unread : Spared i m m := .refl (.inl (by simp [h, Opcode.operands]))
  have written (diagnostics : Diag) : Spared i m { m with diagnostics } :=
    { unread with diagnostics := fun _ other => absurd h other }
  simp [breakpoint, written]

variable [Sink Out] [Sink Diag]

theorem step_intact (untaken : i.opcode.operands = 0) (silent : i.opcode.transfers = false) :
    Ensures (step i) m (fun _ _ => True) (fun _ after => after = m) := by
  cases h : i.opcode with
  | move => simp [step, h, move]
  | createFrame | pushFrame | popFrame => simp [step, h]
  | declare => simp [step, h, declare]
  | call => simp [step, h, call, ensures_branchTarget]
  | ret => simp [step, h]
  | push => simp [step, h, pushSymbol]
  | clear => simp [step, h]
  | binary form op =>
    cases form with
    | arguments => simp [step, h, binary, twoOperands, store]
    | stack => simp [h, Opcode.operands] at untaken
  | unary form op =>
    cases form with
    | arguments => simp [step, h, unary, oneOperand, store]
    | stack => simp [h, Opcode.operands] at untaken
  | concat | getChar => simp [step, h, binary, twoOperands, store]
  | length => simp [step, h, unary, oneOperand, store]
  | setChar => simp [step, h, setChar]
  | kindOf => simp [step, h, kindOf]
  | label => simp [step, h]
  | jump => simp [step, h, jump, ensures_branchTarget]
  | jumpIf form whenEqual =>
    cases form with
    | arguments => simp [step, h, jumpIf, twoOperands, ensures_branchTarget]
    | stack => simp [h, Opcode.operands] at untaken
  | exit => simp [step, h, exit]
  | pop => simp [h, Opcode.operands] at untaken
  | read | write | print | dump => simp [h, Opcode.transfers] at silent

theorem step_spares (i : Instruction) (m : Machine Out Diag) :
    Ensures (step i) m (fun _ _ => True) (fun _ after => Spared i m after) := by
  -- What neither takes operands nor reads or writes fails before it changes anything.
  by_cases plain : i.opcode.operands = 0 ∧ i.opcode.transfers = false
  · refine (step_intact plain.1 plain.2).mono (fun _ _ _ => trivial) fun _ after same => ?_
    exact same ▸ .refl (.inl plain.1)
  · cases h : i.opcode with
    | pop => simpa [step, h] using pop_spares h
    | binary form op =>
      cases form with
      | arguments => simp [h, Opcode.operands, Opcode.transfers] at plain
      | stack => simpa [step, h] using binary_spares h
    | unary form op =>
      cases form with
      | arguments => simp [h, Opcode.operands, Opcode.transfers] at plain
      | stack => simpa [step, h] using unary_spares h
    | jumpIf form whenEqual =>
      cases form with
      | arguments => simp [h, Opcode.operands, Opcode.transfers] at plain
      | stack => simpa [step, h] using jumpIf_spares h
    | read => simpa [step, h] using read_spares h
    | write => simpa [step, h] using write_spares h
    | print => simpa [step, h] using print_spares h
    | dump => simpa [step, h] using breakpoint_spares h
    | _ => simp [h, Opcode.operands, Opcode.transfers] at plain

theorem advance_error {p : Program} {after : Machine Out Diag} {e : RuntimeError}
    (failed : advance p m = (after, some (.error e))) :
    ∃ i, p.instructions[m.next]? = some i ∧ e.position = m.next + 1 ∧ after.next = e.position ∧
      Spared i m.dispatched after := by
  cases advances_of_advance failed with
  | failed found error =>
    have spared := (step_spares _ _).of_error error
    exact ⟨_, found, rfl, spared.next, spared⟩

theorem advance_error_adds :
    ∃ (p : Program) (m after : Machine Buffer Buffer) (e : RuntimeError),
      p = ⟨#[⟨.binary .stack (.arithmetic .add), 1, []⟩]⟩ ∧
      m.stack = [.bool true, .int 1, .nil] ∧ after.stack = [.nil] ∧
      advance p m = (after, some (.error e)) ∧
      ∃ i, p.instructions[m.next]? = some i ∧ e.position = m.next + 1 ∧ after.next = e.position ∧
        Spared i m.dispatched after := by
  let m := { initial ⟨[], none⟩ Buffer.unbounded Buffer.unbounded true with
    stack := [.bool true, .int 1, .nil] }
  exact ⟨_, m, _, _, rfl, rfl, rfl, rfl, advance_error rfl⟩

end Machine

end IppCode
