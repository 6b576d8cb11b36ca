import IppCode.Proofs.Machine.Operand
import IppCode.Proofs.Machine.Outcome

/-!
# What operators compute

Both forms of an operator do one computation on the values of their operands, and it depends on the
form only in the operation code that its faults name (`Uniform`). The forms differ in where the
operands come from and where the result goes.
-/

namespace IppCode

namespace Fault

/-- The fault as another instruction reports it. -/
def reportedBy (opcode : Opcode) : Fault → Fault
  | malformed _ fault => malformed opcode fault
  | badOperand _ value accepted => badOperand opcode value accepted
  | operator _ e => operator opcode e
  | stackUnderflow _ needed depth => stackUnderflow opcode needed depth
  | fault => fault

def Alike (f g : Fault) : Prop := ∃ opcode, f.reportedBy opcode = g

end Fault

def accept (opcode : Opcode) (left right : List Kind) (x y : Value) :
    Except Fault (Value × Value) := do
  expect opcode left x
  expect opcode right y
  return (x, y)

/-- A computation that depends on the operation code only in what its faults name. -/
def Uniform {α : Type} (compute : Opcode → Except Fault α) : Prop :=
  ∀ opcode other, (compute opcode).mapError (.reportedBy other) = compute other

namespace Uniform

variable {α β : Type} {x y : Value}

theorem ok {a : α} : Uniform fun _ => .ok a := fun _ _ => rfl

theorem bind {compute : Opcode → Except Fault α} {f : Opcode → α → Except Fault β}
    (first : Uniform compute) (next : ∀ a, Uniform fun opcode => f opcode a) :
    Uniform fun opcode => compute opcode >>= f opcode := by
  intro opcode other
  have same := first opcode other
  simp only
  rw [← same]
  cases compute opcode with
  | ok a => exact next a opcode other
  | error fault => rfl

theorem map {compute : Opcode → Except Fault α} {f : α → β} (first : Uniform compute) :
    Uniform fun opcode => (compute opcode).map f := by
  intro opcode other
  have same := first opcode other
  simp only
  rw [← same]
  cases compute opcode <;> rfl

theorem frame {result : Except FrameError α} : Uniform fun _ => result.mapError Fault.frame := by
  intro opcode other
  cases result <;> rfl

theorem asFault {computed : Except OperatorError α} :
    Uniform fun opcode => asFault opcode computed := by
  intro opcode other
  cases computed <;> rfl

theorem expect {accepted : List Kind} : Uniform fun opcode => expect opcode accepted x := by
  intro opcode other
  simp only [IppCode.expect]
  split <;> rfl

theorem accept {left right : List Kind} : Uniform fun opcode => accept opcode left right x y :=
  expect.bind fun _ => expect.bind fun _ => ok

theorem expectInt : Uniform fun opcode => expectInt opcode x := by
  intro opcode other
  cases x <;> rfl

theorem expectFloat : Uniform fun opcode => expectFloat opcode x := by
  intro opcode other
  cases x <;> rfl

theorem expectString : Uniform fun opcode => expectString opcode x := by
  intro opcode other
  cases x <;> rfl

theorem binary {op : BinaryOp} : Uniform fun opcode => op.apply opcode x y := by
  cases op with
  | arithmetic op => exact asFault
  | comparison op => exact asFault.map
  | logic op => exact asFault.map
  | charCode => exact expectString.bind fun _ => expectInt.bind fun _ => asFault.map

theorem unary {op : UnaryOp} : Uniform fun opcode => op.apply opcode x := by
  cases op with
  | not => exact ok
  | intToChar => exact expectInt.bind fun _ => asFault.map
  | intToFloat => exact expectInt.bind fun _ => ok
  | floatToInt => exact expectFloat.bind fun _ => asFault.map

end Uniform

def BinaryOp.result (op : BinaryOp) (x y : Value) (opcode : Opcode) : Except Fault Value := do
  let (x, y) ← accept opcode op.leftKinds op.rightKinds x y
  op.apply opcode x y

def UnaryOp.result (op : UnaryOp) (x : Value) (opcode : Opcode) : Except Fault Value := do
  expect opcode op.kinds x
  op.apply opcode x

def delivered (fs : Frames) (v : Variable) (result : Except Fault Value) : Except Fault Frames := do
  let x ← result
  (fs.write v x).mapError .frame

theorem delivered_ok {fs : Frames} {v : Variable} {x : Value} :
    delivered fs v (.ok x) = (fs.write v x).mapError .frame := rfl

def branches (whenEqual : Bool) (x y : Value) (opcode : Opcode) : Except Fault Bool := do
  let (x, y) ← accept opcode Kind.all Kind.all x y
  let equal ← asFault opcode (ComparisonOp.eq.apply x y)
  return equal == whenEqual

namespace Uniform

variable {x y : Value}

theorem delivered {fs : Frames} {v : Variable} {result : Opcode → Except Fault Value}
    (uniform : Uniform result) : Uniform fun opcode => delivered fs v (result opcode) :=
  uniform.bind fun _ => frame

theorem binaryResult {op : BinaryOp} : Uniform (op.result x y) := accept.bind fun _ => binary

theorem unaryResult {op : UnaryOp} : Uniform (op.result x) := expect.bind fun _ => unary

theorem branches {whenEqual : Bool} : Uniform (branches whenEqual x y) :=
  accept.bind fun _ => asFault.bind fun _ => ok

end Uniform

namespace Machine

variable {Out Diag α β : Type} {m : Machine Out Diag} {i : Instruction} {a b : Argument}
  {v : Variable} {x y : Value} {rest : List Value}

theorem ensures_lift_bind {result : Except Fault α} {f : α → Except Fault β}
    {Q : β → Machine Out Diag → Prop} {E : Fault → Machine Out Diag → Prop} :
    Ensures (lift (result >>= f)) m Q E ↔
      Ensures (lift result) m (fun a after => Ensures (lift (f a)) after Q E) E := by
  cases result <;> rfl

theorem ensures_lift_ok {a : α} {Q : α → Machine Out Diag → Prop}
    {E : Fault → Machine Out Diag → Prop} : Ensures (lift (.ok a)) m Q E ↔ Q a m :=
  Iff.rfl

theorem ensures_lift_congr {result : Except Fault α} {Q Q' : α → Machine Out Diag → Prop}
    {E : Fault → Machine Out Diag → Prop} (same : ∀ a, Q a m ↔ Q' a m) :
    Ensures (lift result) m Q E ↔ Ensures (lift result) m Q' E := by
  simp only [ensures_lift, same]

theorem ensures_operand {index : Nat} {kinds : List Kind} {Q : Value → Machine Out Diag → Prop}
    {E : Fault → Machine Out Diag → Prop} (found : i.arguments[index]? = some a)
    (denotes : m.frames.Denotes a x) :
    Ensures (view (·.operand i index kinds)) m Q E ↔
      Ensures (lift (expect i.opcode kinds x)) m (fun _ after => Q x after) E := by
  have symbol := Frames.symbol_eq_ok.2 ⟨a, found, denotes⟩
  have operand : m.frames.operand i index kinds = do expect i.opcode kinds x; return x := by
    rw [Frames.operand, symbol]
    rfl
  rw [ensures_view, operand, ← ensures_lift, ensures_lift_bind]
  rfl

theorem ensures_accept {left right : List Kind} {Q : Value × Value → Machine Out Diag → Prop}
    {E : Fault → Machine Out Diag → Prop} :
    Ensures (lift (accept i.opcode left right x y)) m Q E ↔
      Ensures (lift (expect i.opcode left x)) m (fun _ after =>
        Ensures (lift (expect i.opcode right y)) after (fun _ after => Q (x, y) after) E) E := by
  simp only [accept, ensures_lift_bind]
  rfl

theorem ensures_twoOperands_arguments {left right : List Kind}
    {Q : Value × Value → Machine Out Diag → Prop} {E : Fault → Machine Out Diag → Prop}
    (first : i.arguments[1]? = some a) (second : i.arguments[2]? = some b)
    (hx : m.frames.Denotes a x) (hy : m.frames.Denotes b y) :
    Ensures (twoOperands i .arguments left right) m Q E ↔
      Ensures (lift (accept i.opcode left right x y)) m Q E := by
  rw [twoOperands, ensures_bind, ensures_operand first hx, ensures_accept, ensures_lift,
    ensures_lift, ensures_bind, ensures_operand second hy]
  rfl

theorem ensures_takeOne_of_eq {opcode : Opcode} {Q : Value → Machine Out Diag → Prop}
    {E : Fault → Machine Out Diag → Prop} (top : m.stack = x :: rest) :
    Ensures (takeOne opcode) m Q E ↔ Q x { m with stack := rest } := by
  simp [top]

theorem ensures_takeTwo_of_eq {opcode : Opcode} {Q : Value × Value → Machine Out Diag → Prop}
    {E : Fault → Machine Out Diag → Prop} (top : m.stack = y :: x :: rest) :
    Ensures (takeTwo opcode) m Q E ↔ Q (x, y) { m with stack := rest } := by
  have deep : ¬ rest.length + 1 + 1 < 2 := by omega
  simp [top, deep]

theorem ensures_twoOperands_stack {left right : List Kind}
    {Q : Value × Value → Machine Out Diag → Prop} {E : Fault → Machine Out Diag → Prop}
    (top : m.stack = y :: x :: rest) :
    Ensures (twoOperands i .stack left right) m Q E ↔
      Ensures (lift (accept i.opcode left right x y)) { m with stack := rest } Q E := by
  rw [twoOperands, ensures_bind, ensures_takeTwo_of_eq top, ensures_accept]
  simp only [ensures_bind, ensures_pure]

theorem ensures_deliver {result : Except Fault Value} {U : Unit → Machine Out Diag → Prop}
    {E : Fault → Machine Out Diag → Prop} (destination : i.arguments[0]? = some (.var v)) :
    Ensures (lift result >>= store i .arguments) m U E ↔
      Ensures (lift (delivered m.frames v result)) m
        (fun frames _ => U () { m with frames }) E := by
  rw [delivered, ensures_lift_bind, ensures_bind]
  refine ensures_lift_congr fun x => ?_
  rw [store, ensures_bind, Instruction.variableAt_eq_ok.2 destination, ensures_lift_ok,
    ensures_assign, ensures_lift]
  simp only [mapError_frame_eq_ok, mapError_frame_eq_error]
  refine and_congr_right fun _ => ⟨?_, fun failed e error => failed _ ⟨e, error, rfl⟩⟩
  rintro failed _ ⟨e, error, rfl⟩
  exact failed e error

theorem ensures_binary_arguments {op : BinaryOp} {U : Unit → Machine Out Diag → Prop}
    {E : Fault → Machine Out Diag → Prop} (arguments : i.arguments = [.var v, a, b])
    (hx : m.frames.Denotes a x) (hy : m.frames.Denotes b y) :
    Ensures (binary i .arguments op.leftKinds op.rightKinds (op.apply i.opcode)) m U E ↔
      Ensures (lift (delivered m.frames v (op.result x y i.opcode))) m
        (fun frames _ => U () { m with frames }) E := by
  rw [binary, ensures_bind, ensures_twoOperands_arguments (by rw [arguments]; rfl)
    (by rw [arguments]; rfl) hx hy, delivered, BinaryOp.result, bind_assoc, ensures_lift_bind]
  exact ensures_lift_congr fun _ => ensures_deliver (by rw [arguments]; rfl)

theorem ensures_unary_arguments {op : UnaryOp} {U : Unit → Machine Out Diag → Prop}
    {E : Fault → Machine Out Diag → Prop} (arguments : i.arguments = [.var v, a])
    (hx : m.frames.Denotes a x) :
    Ensures (unary i .arguments op.kinds (op.apply i.opcode)) m U E ↔
      Ensures (lift (delivered m.frames v (op.result x i.opcode))) m
        (fun frames _ => U () { m with frames }) E := by
  rw [unary, oneOperand, ensures_bind, ensures_operand (by rw [arguments]; rfl) hx, delivered,
    UnaryOp.result, bind_assoc, ensures_lift_bind]
  exact ensures_lift_congr fun _ => ensures_deliver (by rw [arguments]; rfl)

theorem ensures_binary_stack {op : BinaryOp} {U : Unit → Machine Out Diag → Prop}
    {E : Fault → Machine Out Diag → Prop} (top : m.stack = y :: x :: rest) :
    Ensures (binary i .stack op.leftKinds op.rightKinds (op.apply i.opcode)) m U E ↔
      Ensures (lift (op.result x y i.opcode)) { m with stack := rest }
        (fun z _ => U () { m with stack := z :: rest }) E := by
  rw [binary, ensures_bind, ensures_twoOperands_stack top, BinaryOp.result, ensures_lift_bind]
  refine ensures_lift_congr fun _ => ?_
  rw [ensures_bind]
  exact ensures_lift_congr fun _ => ensures_push

theorem ensures_unary_stack {op : UnaryOp} {U : Unit → Machine Out Diag → Prop}
    {E : Fault → Machine Out Diag → Prop} (top : m.stack = x :: rest) :
    Ensures (unary i .stack op.kinds (op.apply i.opcode)) m U E ↔
      Ensures (lift (op.result x i.opcode)) { m with stack := rest }
        (fun z _ => U () { m with stack := z :: rest }) E := by
  rw [unary, oneOperand, UnaryOp.result, ensures_lift_bind]
  simp only [ensures_bind, ensures_takeOne_of_eq top, ensures_pure]
  refine ensures_lift_congr fun _ => ?_
  exact ensures_lift_congr fun _ => ensures_push

theorem ensures_branchTarget_declared {name : String} {position : Nat}
    {Q : Nat → Machine Out Diag → Prop} {E : Fault → Machine Out Diag → Prop}
    (target : i.arguments[0]? = some (.label name))
    (declared : m.labels.find? name = some position) :
    Ensures (branchTarget i) m Q E ↔ Q position m := by
  simp [branchTarget, Instruction.labelAt_eq_ok.2 target, declared]

theorem ensures_branchTarget_undeclared {name : String}
    {Q : Nat → Machine Out Diag → Prop} {E : Fault → Machine Out Diag → Prop}
    (target : i.arguments[0]? = some (.label name)) (undeclared : m.labels.find? name = none) :
    Ensures (branchTarget i) m Q E ↔ E (.undefinedLabel name) m := by
  simp [branchTarget, Instruction.labelAt_eq_ok.2 target, undeclared]

theorem ensures_jumpIf {form : Form} {name : String} {position : Nat} {whenEqual : Bool}
    {now : Machine Out Diag} {U : Unit → Machine Out Diag → Prop}
    {E : Fault → Machine Out Diag → Prop} (target : i.arguments[0]? = some (.label name))
    (declared : m.labels.find? name = some position)
    (operands : ∀ Q : Value × Value → Machine Out Diag → Prop,
      Ensures (twoOperands i form Kind.all Kind.all) m Q E ↔
        Ensures (lift (accept i.opcode Kind.all Kind.all x y)) now Q E) :
    Ensures (jumpIf i form whenEqual) m U E ↔
      Ensures (lift (branches whenEqual x y i.opcode)) now
        (fun taken _ => U () { now with next := if taken then position else now.next }) E := by
  rw [jumpIf, ensures_bind, ensures_branchTarget_declared target declared, ensures_bind, operands,
    branches, ensures_lift_bind]
  refine ensures_lift_congr fun _ => ?_
  rw [ensures_bind, ensures_lift_bind]
  refine ensures_lift_congr fun equal => ?_
  rw [show (pure (equal == whenEqual) : Except Fault Bool) = .ok (equal == whenEqual) from rfl,
    ensures_lift_ok]
  by_cases taken : equal = whenEqual <;> simp [taken]

end Machine

end IppCode
