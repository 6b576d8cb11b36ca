import IppCode.Proofs.Machine.Failure
import IppCode.Proofs.Machine.Respelling

/-!
# Parts of instructions

Instructions that do not transfer anything are put together from the same few actions. A relation of
actions that holds of those and passes to sequences therefore holds of two instructions that differ
only in order and spelling (`step_of_twins`); a property of actions is a relation that ignores the
second one (`step_of_parts`).
-/

namespace IppCode.Machine

variable {Out Diag : Type}

/-- A relation between the actions that two instructions are put together from. -/
structure Twins (f : String → String) (i j : Instruction)
    (T : (α : Type) → Action Out Diag α → Action Out Diag α → Prop) : Prop where
  pure {α : Type} (a : α) : T α (pure a) (pure a)
  throw {α : Type} {fault : Fault} : fault.isStatic = false → T α (throw fault) (throw fault)
  bind {α β : Type} {x y : Action Out Diag α} {g h : α → Action Out Diag β} :
    T α x y → (∀ a, T β (g a) (h a)) → T β (x >>= g) (y >>= h)
  view {α : Type} {g h : Frames → Except Fault α} :
    (∀ fs, h fs = (g fs).mapError (·.respell f)) → T α (view g) (view h)
  create : T Unit (reframe fun frames => .ok frames.create) (reframe fun frames => .ok frames.create)
  pushFrame : T Unit (reframe (·.push)) (reframe (·.push))
  popFrame : T Unit (reframe (·.pop)) (reframe (·.pop))
  declare (v : Variable) : T Unit (reframe (·.declare v)) (reframe (·.declare v))
  assign (v : Variable) (x : Value) : T Unit (assign v x) (assign v x)
  push (x : Value) : T Unit (push x) (push x)
  requireDepth (opcode : Opcode) (needed : Nat) :
    T Unit (requireDepth opcode needed) (requireDepth opcode needed)
  takeTop (opcode : Opcode) : T Value (takeTop opcode) (takeTop opcode)
  clear : T Unit clear clear
  branchTarget : T Nat (branchTarget i) (branchTarget j)
  goTo (position : Nat) : T Unit (goTo position) (goTo position)
  call (position : Nat) :
    T Unit (modify fun m => { m with calls := m.next :: m.calls, next := position })
      (modify fun m => { m with calls := m.next :: m.calls, next := position })
  ret : T Unit ret ret

namespace Twins

variable {f : String → String} {i j : Instruction} {α : Type}
  {T : (α : Type) → Action Out Diag α → Action Out Diag α → Prop}
  {form : Form} {left right kinds : List Kind}

theorem proceed {x y : Action Out Diag Unit} (twins : Twins f i j T) (first : T Unit x y) :
    T (Option Halt) (proceed x) (proceed y) :=
  twins.bind first fun _ => twins.pure none

theorem lift {result : Except Fault α} (twins : Twins f i j T) (computed : Computed result) :
    T α (lift result) (lift result) :=
  twins.view fun _ => computed.dynamic.respell.symm

theorem variableAt (twins : Twins f i j T) (respelt : i.Respelt f j) (index : Nat) :
    T Variable (Machine.lift (i.variableAt index)) (Machine.lift (j.variableAt index)) :=
  twins.view fun _ => respelt.variableAt

theorem symbol (twins : Twins f i j T) (respelt : i.Respelt f j) (index : Nat) :
    T Value (Machine.view (·.symbol i index)) (Machine.view (·.symbol j index)) :=
  twins.view respelt.symbol

theorem operand (twins : Twins f i j T) (respelt : i.Respelt f j) (index : Nat) :
    T Value (Machine.view (·.operand i index kinds)) (Machine.view (·.operand j index kinds)) :=
  twins.view respelt.operand

theorem takeOne (twins : Twins f i j T) (opcode : Opcode) :
    T Value (takeOne opcode) (takeOne opcode) :=
  twins.bind (twins.requireDepth opcode 1) fun _ => twins.takeTop opcode

theorem takeTwo (twins : Twins f i j T) (opcode : Opcode) :
    T (Value × Value) (takeTwo opcode) (takeTwo opcode) := by
  apply twins.bind (twins.requireDepth opcode 2)
  intro _
  apply twins.bind (twins.takeTop opcode)
  intro b
  exact twins.bind (twins.takeTop opcode) fun a => twins.pure (a, b)

theorem oneOperand (twins : Twins f i j T) (respelt : i.Respelt f j) :
    T Value (oneOperand i form kinds) (oneOperand j form kinds) := by
  cases form with
  | arguments => exact twins.operand respelt 1
  | stack =>
    unfold Machine.oneOperand
    rw [respelt.opcode]
    apply twins.bind (twins.takeOne _)
    intro a
    exact twins.bind (twins.lift .of_expect) fun _ => twins.pure a

theorem twoOperands (twins : Twins f i j T) (respelt : i.Respelt f j) :
    T (Value × Value) (twoOperands i form left right) (twoOperands j form left right) := by
  cases form with
  | arguments =>
    apply twins.bind (twins.operand respelt 1)
    intro a
    exact twins.bind (twins.operand respelt 2) fun b => twins.pure (a, b)
  | stack =>
    unfold Machine.twoOperands
    rw [respelt.opcode]
    apply twins.bind (twins.takeTwo _)
    intro (a, b)
    apply twins.bind (twins.lift .of_expect)
    intro _
    exact twins.bind (twins.lift .of_expect) fun _ => twins.pure (a, b)

theorem store (twins : Twins f i j T) (respelt : i.Respelt f j) (x : Value) :
    T Unit (store i form x) (store j form x) := by
  cases form with
  | arguments => exact twins.bind (twins.variableAt respelt 0) fun v => twins.assign v x
  | stack => exact twins.push x

theorem unary {g : Value → Except Fault Value} (twins : Twins f i j T) (respelt : i.Respelt f j)
    (computed : ∀ a, Computed (g a)) : T Unit (unary i form kinds g) (unary j form kinds g) := by
  apply twins.bind (twins.oneOperand respelt)
  intro a
  exact twins.bind (twins.lift (computed a)) fun x => twins.store respelt x

theorem binary {g : Value → Value → Except Fault Value} (twins : Twins f i j T)
    (respelt : i.Respelt f j) (computed : ∀ a b, Computed (g a b)) :
    T Unit (binary i form left right g) (binary j form left right g) := by
  apply twins.bind (twins.twoOperands respelt)
  intro (a, b)
  exact twins.bind (twins.lift (computed a b)) fun x => twins.store respelt x

theorem setChar (twins : Twins f i j T) (respelt : i.Respelt f j) :
    T Unit (setChar i) (setChar j) := by
  unfold Machine.setChar
  rw [respelt.opcode]
  apply twins.bind (twins.variableAt respelt 0)
  intro v
  apply twins.bind (twins.view fun _ => Dynamic.of_read.respell.symm)
  intro old
  apply twins.bind (twins.lift .of_expectString)
  intro s
  apply twins.bind (twins.operand respelt 1)
  intro a
  apply twins.bind (twins.lift .of_expectInt)
  intro index
  apply twins.bind (twins.operand respelt 2)
  intro b
  apply twins.bind (twins.lift .of_expectString)
  intro replacement
  exact twins.bind (twins.lift .of_asFault) fun _ => twins.assign v _

theorem jumpIf (twins : Twins f i j T) (respelt : i.Respelt f j) {whenEqual : Bool} :
    T Unit (jumpIf i form whenEqual) (jumpIf j form whenEqual) := by
  unfold Machine.jumpIf
  rw [respelt.opcode]
  apply twins.bind twins.branchTarget
  intro target
  apply twins.bind (twins.twoOperands respelt)
  intro (a, b)
  apply twins.bind (twins.lift .of_asFault)
  intro equal
  split
  · exact twins.goTo target
  · exact twins.pure ()

theorem exit (twins : Twins f i j T) (respelt : i.Respelt f j) :
    T (Option Halt) (exit i) (exit j) := by
  unfold Machine.exit
  rw [respelt.opcode]
  apply twins.bind (twins.operand respelt 0)
  intro a
  apply twins.bind (twins.lift .of_expectInt)
  intro code
  split
  · exact twins.pure _
  · exact twins.throw rfl

end Twins

variable [Sink Out] [Sink Diag]

theorem step_of_twins {f : String → String} {i j : Instruction}
    {T : (α : Type) → Action Out Diag α → Action Out Diag α → Prop} (twins : Twins f i j T)
    (respelt : i.Respelt f j) (silent : i.opcode.transfers = false) :
    T (Option Halt) (step i) (step j) := by
  have same := respelt.opcode
  obtain ⟨opcode, order, arguments⟩ := i
  obtain ⟨_, other, spelt⟩ := j
  obtain rfl : opcode = _ := same.symm
  cases opcode with
  | move =>
    apply twins.proceed
    apply twins.bind (twins.variableAt respelt 0)
    intro v
    exact twins.bind (twins.symbol respelt 1) fun x => twins.assign v x
  | createFrame => exact twins.proceed twins.create
  | pushFrame => exact twins.proceed twins.pushFrame
  | popFrame => exact twins.proceed twins.popFrame
  | declare => exact twins.proceed (twins.bind (twins.variableAt respelt 0) twins.declare)
  | call => exact twins.proceed (twins.bind twins.branchTarget twins.call)
  | ret => exact twins.proceed twins.ret
  | push => exact twins.proceed (twins.bind (twins.symbol respelt 0) twins.push)
  | pop =>
    apply twins.proceed
    apply twins.bind (twins.variableAt respelt 0)
    intro v
    exact twins.bind (twins.takeOne _) fun x => twins.assign v x
  | clear => exact twins.proceed twins.clear
  | binary => exact twins.proceed (twins.binary respelt fun _ _ => .of_binary)
  | unary => exact twins.proceed (twins.unary respelt fun _ => .of_unary)
  | concat => exact twins.proceed (twins.binary respelt fun _ _ => .of_concat)
  | length => exact twins.proceed (twins.unary respelt fun _ => .of_length)
  | getChar => exact twins.proceed (twins.binary respelt fun _ _ => .of_getChar)
  | setChar => exact twins.proceed (twins.setChar respelt)
  | kindOf =>
    apply twins.proceed
    apply twins.bind (twins.variableAt respelt 0)
    intro v
    exact twins.bind (twins.view respelt.kindName) fun name => twins.assign v (.string name)
  | label => exact twins.proceed (twins.pure ())
  | jump => exact twins.proceed (twins.bind twins.branchTarget twins.goTo)
  | jumpIf => exact twins.proceed (twins.jumpIf respelt)
  | exit => exact twins.exit respelt
  | read | write | print | dump => cases silent

/-- A property of what instructions are put together from, except for reading. -/
structure Parts (P : (α : Type) → Action Out Diag α → Prop) : Prop where
  pure {α : Type} (a : α) : P α (pure a)
  throw {α : Type} (fault : Fault) : P α (throw fault)
  bind {α β : Type} {x : Action Out Diag α} {f : α → Action Out Diag β} :
    P α x → (∀ a, P β (f a)) → P β (x >>= f)
  view {α : Type} (f : Frames → Except Fault α) : P α (view f)
  create : P Unit (reframe fun frames => .ok frames.create)
  pushFrame : P Unit (reframe (·.push))
  popFrame : P Unit (reframe (·.pop))
  declare (v : Variable) : P Unit (reframe (·.declare v))
  assign (v : Variable) (x : Value) : P Unit (assign v x)
  push (x : Value) : P Unit (push x)
  requireDepth (opcode : Opcode) (needed : Nat) : P Unit (requireDepth opcode needed)
  takeTop (opcode : Opcode) : P Value (takeTop opcode)
  clear : P Unit clear
  resolve (name : String) : P Nat (resolve name)
  goTo (position : Nat) : P Unit (goTo position)
  call (position : Nat) :
    P Unit (modify fun m => { m with calls := m.next :: m.calls, next := position })
  ret : P Unit ret
  writeOutput (text : String) : P Unit (writeOutput text)
  writeDiagnostics (text : String) : P Unit (writeDiagnostics text)
  breakpoint (i : Instruction) : P Unit (breakpoint i)

namespace Parts

variable {P : (α : Type) → Action Out Diag α → Prop} {α : Type}

theorem proceed {x : Action Out Diag Unit} (parts : Parts P) (first : P Unit x) :
    P (Option Halt) (proceed x) :=
  parts.bind first fun _ => parts.pure none

theorem lift (parts : Parts P) (result : Except Fault α) : P α (lift result) :=
  parts.view fun _ => result

theorem twins (parts : Parts P) (i : Instruction) : Twins id i i fun α x _ => P α x where
  pure := parts.pure
  throw _ := parts.throw _
  bind := parts.bind
  view _ := parts.view _
  create := parts.create
  pushFrame := parts.pushFrame
  popFrame := parts.popFrame
  declare := parts.declare
  assign := parts.assign
  push := parts.push
  requireDepth := parts.requireDepth
  takeTop := parts.takeTop
  clear := parts.clear
  branchTarget := parts.bind (parts.lift _) parts.resolve
  goTo := parts.goTo
  call := parts.call
  ret := parts.ret

end Parts

theorem step_of_parts {P : (α : Type) → Action Out Diag α → Prop} (parts : Parts P)
    (i : Instruction) (reads : i.opcode = .read → P Unit (read i)) : P (Option Halt) (step i) := by
  cases silent : i.opcode.transfers with
  | false => exact step_of_twins (parts.twins i) (.refl i) silent
  | true =>
    obtain ⟨opcode, order, arguments⟩ := i
    cases opcode with
    | read => exact parts.proceed (reads rfl)
    | write => exact parts.proceed (parts.bind (parts.view _) fun _ => parts.writeOutput _)
    | print => exact parts.proceed (parts.bind (parts.view _) fun _ => parts.writeDiagnostics _)
    | dump => exact parts.proceed (parts.breakpoint _)
    | _ => cases silent

end IppCode.Machine
