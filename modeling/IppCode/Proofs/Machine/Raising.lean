import IppCode.Proofs.Machine.Outcome
import IppCode.Proofs.Machine.Operand

/-!
# What instructions fail with

The faults that an instruction can run into, and what each of them says of its arguments
(`step_raising`). The statement is about one instruction on any machine; parts of instructions have
it, and it passes to their sequences.
-/

namespace IppCode

def Fault.isOperational : Fault → Bool
  | badOperand _ _ _ | operator _ _ => true
  | _ => false

/-- A computation on values that are there. -/
def Computed {α : Type} (result : Except Fault α) : Prop :=
  ∀ fault, result = .error fault → fault.isOperational = true

namespace Computed

variable {α β : Type} {result : Except Fault α} {opcode : Opcode} {a b : Value}

theorem bind {f : α → Except Fault β} (first : Computed result) (next : ∀ x, Computed (f x)) :
    Computed (result >>= f) := by
  cases result with
  | ok x => exact next x
  | error fault =>
    rintro _ ⟨⟩
    exact first fault rfl

theorem map {f : α → β} (first : Computed result) : Computed (result.map f) := by
  cases result with
  | ok x => rintro _ ⟨⟩
  | error fault =>
    rintro _ ⟨⟩
    exact first fault rfl

theorem ok {x : α} : Computed (.ok x) := by
  rintro _ ⟨⟩

theorem of_asFault {computed : Except OperatorError α} : Computed (asFault opcode computed) := by
  cases computed with
  | ok x => exact ok
  | error e =>
    rintro _ ⟨⟩
    rfl

theorem of_expect {accepted : List Kind} : Computed (expect opcode accepted a) := by
  intro fault error
  rw [(expect_eq_error.1 error).2]
  rfl

theorem of_expectInt : Computed (expectInt opcode a) := by
  cases a <;> rintro _ ⟨⟩ <;> rfl

theorem of_expectFloat : Computed (expectFloat opcode a) := by
  cases a <;> rintro _ ⟨⟩ <;> rfl

theorem of_expectString : Computed (expectString opcode a) := by
  cases a <;> rintro _ ⟨⟩ <;> rfl

theorem of_binary {op : BinaryOp} : Computed (op.apply opcode a b) := by
  cases op with
  | arithmetic op => exact of_asFault
  | comparison op => exact of_asFault.map
  | logic op => exact of_asFault.map
  | charCode => exact of_expectString.bind fun s => of_expectInt.bind fun index => of_asFault.map

theorem of_unary {op : UnaryOp} : Computed (op.apply opcode a) := by
  cases op with
  | not => exact ok
  | intToChar => exact of_expectInt.bind fun code => of_asFault.map
  | intToFloat => exact of_expectInt.bind fun n => ok
  | floatToInt => exact of_expectFloat.bind fun x => of_asFault.map

theorem of_concat : Computed (Machine.concat opcode a b) :=
  of_expectString.bind fun _ => of_expectString.bind fun _ => ok

theorem of_length : Computed (Machine.length opcode a) := of_expectString.bind fun _ => ok

theorem of_getChar : Computed (Machine.getChar opcode a b) :=
  of_expectString.bind fun _ => of_expectInt.bind fun _ => of_asFault.map

end Computed

inductive FrameError.Concerns (v : Variable) : FrameError → Prop
  | missingFrame {scope : Scope} : Concerns v (.missingFrame scope)
  | undefined : Concerns v (.undefined v)
  | redefined : Concerns v (.redefined v)
  | uninitialized : Concerns v (.uninitialized v)

namespace Frames

variable {α : Type} {fs : Frames} {v : Variable} {x : Value} {e : FrameError}

theorem concerns_of_frame {access : Frame → Except FrameError α}
    (error : (fs.frame v.scope >>= access) = .error e)
    (inside : ∀ f, access f = .error e → e.Concerns v) : e.Concerns v := by
  unfold frame at error
  cases found : fs.frame? v.scope with
  | some f =>
    rw [found] at error
    exact inside f error
  | none =>
    rw [found] at error
    exact Except.error.inj error ▸ .missingFrame

theorem slot_error (error : fs.slot v = .error e) : e.Concerns v := by
  refine concerns_of_frame error fun f failed => ?_
  split at failed
  · cases failed
  · exact Except.error.inj failed ▸ .undefined

theorem read_error (error : fs.read v = .error e) : e.Concerns v := by
  unfold read at error
  cases held : fs.slot v with
  | error e' =>
    rw [held] at error
    exact Except.error.inj error ▸ slot_error held
  | ok slot =>
    rw [held] at error
    cases slot with
    | some x => cases error
    | none => exact Except.error.inj error ▸ .uninitialized

theorem declare_error (error : fs.declare v = .error e) : e.Concerns v := by
  refine concerns_of_frame error fun f failed => ?_
  split at failed
  · exact Except.error.inj failed ▸ .redefined
  · cases failed

theorem write_error (error : fs.write v x = .error e) : e.Concerns v := by
  refine concerns_of_frame error fun f failed => ?_
  split at failed
  · cases failed
  · exact Except.error.inj failed ▸ .undefined

theorem push_error (error : fs.push = .error e) : ∃ scope, e = .missingFrame scope := by
  unfold push at error
  split at error
  · cases error
  · exact ⟨.temporary, (Except.error.inj error).symm⟩

theorem pop_error (error : fs.pop = .error e) : ∃ scope, e = .missingFrame scope := by
  unfold pop at error
  split at error
  · cases error
  · exact ⟨.innermost, (Except.error.inj error).symm⟩

end Frames

/-! ## Faults of instructions -/

/-- The faults that an instruction can run into. -/
inductive Raised (i : Instruction) (labels : LabelTable) : Fault → Prop
  | misfit {index : Nat} {shape : Shape} {fault : Fault} :
      i.opcode.signature[index]? = some shape → i.Misfit index shape fault → Raised i labels fault
  | literal {l : Literal} : .literal l ∈ i.arguments → l.value? = none →
      Raised i labels (.invalidLiteral l)
  | label {name : String} : i.branchTarget? = some name → labels.find? name = none →
      Raised i labels (.undefinedLabel name)
  | frame {v : Variable} {e : FrameError} : .var v ∈ i.arguments → e.Concerns v →
      Raised i labels (.frame e)
  | missingFrame {scope : Scope} : Raised i labels (.frame (.missingFrame scope))
  | operational {fault : Fault} : fault.isOperational = true → Raised i labels fault
  | stackUnderflow {needed depth : Nat} : Raised i labels (.stackUnderflow i.opcode needed depth)
  | emptyCallStack : Raised i labels .emptyCallStack
  | invalidExitCode {code : Int64} : Raised i labels (.invalidExitCode code)
  | io {text : String} : Raised i labels (.io text)

namespace Raised

variable {i : Instruction} {labels : LabelTable} {index : Nat} {fs : Frames} {fault : Fault}

theorem of_symbolFault (asked : i.opcode.signature[index]? = some .symbol)
    (error : fs.SymbolFault i index fault) : Raised i labels fault := by
  cases error with
  | misfit misfit => exact .misfit asked misfit
  | literal found invalid => exact .literal (List.mem_of_getElem? found) invalid
  | frame found failed => exact .frame (List.mem_of_getElem? found) (Frames.read_error failed)

theorem of_operand {accepted : List Kind} (asked : i.opcode.signature[index]? = some .symbol)
    (error : fs.operand i index accepted = .error fault) : Raised i labels fault := by
  rcases Frames.operand_eq_error.1 error with symbol | ⟨x, -, -, rfl⟩
  · exact .of_symbolFault asked (Frames.symbol_error symbol)
  · exact .operational rfl

theorem of_branch {name : String} (branch : i.opcode.isBranch = true)
    (found : i.labelAt 0 = .ok name) (undeclared : labels.find? name = none) :
    Raised i labels (.undefinedLabel name) := by
  refine .label ?_ undeclared
  have first := Instruction.labelAt_eq_ok.1 found
  cases arguments : i.arguments with
  | nil => simp [arguments] at first
  | cons a rest =>
    obtain rfl : a = .label name := by simpa [arguments] using first
    simp [Instruction.branchTarget?, arguments, branch]

end Raised

namespace Machine

variable {Out Diag : Type}

/-- An action that fails only with what the instruction can run into, and keeps the labels. -/
def Raising {α : Type} (i : Instruction) (x : Action Out Diag α) : Prop :=
  ∀ m, Ensures x m (fun _ after => after.labels = m.labels)
    (fun fault _ => Raised i m.labels fault)

namespace Raising

variable {α β : Type} {i : Instruction} {index : Nat} {v : Variable}

theorem pure {a : α} : Raising i (pure a : Action Out Diag α) := fun _ => rfl

theorem throw {fault : Fault} (raised : ∀ labels, Raised i labels fault) :
    Raising i (throw fault : Action Out Diag α) :=
  fun m => raised m.labels

theorem bind {x : Action Out Diag α} {f : α → Action Out Diag β} (first : Raising i x)
    (next : ∀ a, Raising i (f a)) : Raising i (x >>= f) := by
  intro m
  rw [ensures_bind]
  refine (first m).mono (fun a after labels => ?_) fun _ _ raised => raised
  simpa only [labels] using next a after

theorem proceed {x : Action Out Diag Unit} (first : Raising i x) : Raising i (proceed x) :=
  first.bind fun _ => pure

theorem view {f : Frames → Except Fault α}
    (error : ∀ fs labels fault, f fs = .error fault → Raised i labels fault) :
    Raising i (view f : Action Out Diag α) := by
  intro m
  rw [ensures_view]
  exact ⟨fun _ _ => rfl, error _ _⟩

theorem lift {result : Except Fault α} (computed : Computed result) :
    Raising i (lift result : Action Out Diag α) :=
  view fun _ _ fault error => .operational (computed fault error)

theorem get : Raising i (get : Action Out Diag (Machine Out Diag)) := fun _ => rfl

theorem variableAt {f : Variable → Action Out Diag β}
    (asked : i.opcode.signature[index]? = some .var)
    (next : ∀ v, .var v ∈ i.arguments → Raising i (f v)) :
    Raising i (Machine.lift (i.variableAt index) >>= f) := by
  intro m
  rw [ensures_bind, ensures_lift]
  refine ⟨fun v found => ?_, fun fault error => ?_⟩
  · exact next v (List.mem_of_getElem? (Instruction.variableAt_eq_ok.1 found)) m
  · exact .misfit asked (Instruction.variableAt_error error)

theorem read (given : .var v ∈ i.arguments) :
    Raising i (Machine.view fun frames => (frames.read v).mapError Fault.frame :
      Action Out Diag Value) := by
  refine view fun fs labels fault error => ?_
  obtain ⟨e, failed, rfl⟩ := mapError_frame_eq_error.1 error
  exact .frame given (Frames.read_error failed)

theorem kindAt (asked : i.opcode.signature[index]? = some .kind) :
    Raising i (Machine.lift (i.kindAt index) : Action Out Diag Kind) :=
  view fun _ _ _ error => .misfit asked (Instruction.kindAt_error error)

theorem symbol (asked : i.opcode.signature[index]? = some .symbol) :
    Raising i (Machine.view (·.symbol i index) : Action Out Diag Value) :=
  view fun _ _ _ error => .of_symbolFault asked (Frames.symbol_error error)

theorem kindName (asked : i.opcode.signature[index]? = some .symbol) :
    Raising i (Machine.view (·.kindName i index) : Action Out Diag String) :=
  view fun _ _ _ error => .of_symbolFault asked (Frames.kindName_error error)

theorem operand {accepted : List Kind} (asked : i.opcode.signature[index]? = some .symbol) :
    Raising i (Machine.view (·.operand i index accepted) : Action Out Diag Value) :=
  view fun _ _ _ error => .of_operand asked error

theorem branchTarget (asked : i.opcode.signature[0]? = some .label)
    (branch : i.opcode.isBranch = true) :
    Raising i (branchTarget i : Action Out Diag Nat) := by
  intro m
  rw [ensures_branchTarget]
  refine ⟨fun name found => ⟨fun _ _ => rfl, fun undeclared => ?_⟩, fun fault error => ?_⟩
  · exact .of_branch branch found undeclared
  · exact .misfit asked (Instruction.labelAt_error error)

theorem reframe {f : Frames → Except FrameError Frames}
    (error : ∀ fs labels e, f fs = .error e → Raised i labels (.frame e)) :
    Raising i (reframe f : Action Out Diag Unit) := by
  intro m
  rw [ensures_reframe]
  exact ⟨fun _ _ => rfl, error _ _⟩

theorem create :
    Raising i (Machine.reframe fun frames => .ok frames.create : Action Out Diag Unit) :=
  fun _ => rfl

theorem pushFrame : Raising i (Machine.reframe (·.push) : Action Out Diag Unit) := by
  refine reframe fun fs labels e error => ?_
  obtain ⟨scope, rfl⟩ := Frames.push_error error
  exact .missingFrame

theorem popFrame : Raising i (Machine.reframe (·.pop) : Action Out Diag Unit) := by
  refine reframe fun fs labels e error => ?_
  obtain ⟨scope, rfl⟩ := Frames.pop_error error
  exact .missingFrame

theorem declare (given : .var v ∈ i.arguments) :
    Raising i (Machine.reframe (·.declare v) : Action Out Diag Unit) :=
  reframe fun _ _ _ error => .frame given (Frames.declare_error error)

theorem assign {x : Value} (given : .var v ∈ i.arguments) :
    Raising i (assign v x : Action Out Diag Unit) :=
  reframe fun _ _ _ error => .frame given (Frames.write_error error)

theorem push {x : Value} : Raising i (push x : Action Out Diag Unit) := fun _ => rfl

theorem clear : Raising i (clear : Action Out Diag Unit) := fun _ => rfl

theorem goTo {position : Nat} : Raising i (goTo position : Action Out Diag Unit) := fun _ => rfl

theorem takeOne : Raising i (takeOne i.opcode : Action Out Diag Value) := by
  intro m
  rw [ensures_takeOne]
  exact ⟨fun _ _ _ => rfl, fun _ => .stackUnderflow⟩

theorem takeTwo : Raising i (takeTwo i.opcode : Action Out Diag (Value × Value)) := by
  intro m
  rw [ensures_takeTwo]
  exact ⟨fun _ _ _ _ => rfl, fun _ => .stackUnderflow⟩

theorem ret : Raising i (ret : Action Out Diag Unit) := by
  intro m
  rw [ensures_ret]
  exact ⟨fun _ _ _ => rfl, fun _ => .emptyCallStack⟩

theorem readLine : Raising i (readLine : Action Out Diag (Option String)) := by
  intro m
  rw [ensures_readLine]
  exact ⟨fun _ _ _ => rfl, fun _ _ _ => .io⟩

theorem writeOutput [Sink Out] {text : String} :
    Raising i (writeOutput text : Action Out Diag Unit) := by
  intro m
  rw [ensures_writeOutput]
  exact ⟨fun _ _ => rfl, fun _ _ _ => .io⟩

theorem writeDiagnostics [Sink Diag] {text : String} :
    Raising i (writeDiagnostics text : Action Out Diag Unit) := by
  intro m
  rw [ensures_writeDiagnostics]
  exact ⟨fun _ _ => rfl, fun _ _ _ => .io⟩

theorem oneOperand {form : Form} {kinds : List Kind}
    (asked : form = .arguments → i.opcode.signature[1]? = some .symbol) :
    Raising i (oneOperand i form kinds : Action Out Diag Value) := by
  cases form with
  | arguments => exact operand (asked rfl)
  | stack => exact takeOne.bind fun _ => (lift .of_expect).bind fun _ => pure

theorem twoOperands {form : Form} {left right : List Kind}
    (first : form = .arguments → i.opcode.signature[1]? = some .symbol)
    (second : form = .arguments → i.opcode.signature[2]? = some .symbol) :
    Raising i (twoOperands i form left right : Action Out Diag (Value × Value)) := by
  cases form with
  | arguments =>
    exact (operand (first rfl)).bind fun _ => (operand (second rfl)).bind fun _ => pure
  | stack =>
    exact takeTwo.bind fun _ => (lift .of_expect).bind fun _ => (lift .of_expect).bind fun _ =>
      pure

theorem store {form : Form} {x : Value}
    (asked : form = .arguments → i.opcode.signature[0]? = some .var) :
    Raising i (store i form x : Action Out Diag Unit) := by
  cases form with
  | arguments => exact variableAt (asked rfl) fun _ => assign
  | stack => exact push

theorem unary {form : Form} {kinds : List Kind} {f : Value → Except Fault Value}
    (asked : form = .arguments → i.opcode.signature = [.var, .symbol])
    (computed : ∀ a, Computed (f a)) : Raising i (unary i form kinds f : Action Out Diag Unit) :=
  (oneOperand fun arguments => by rw [asked arguments]; rfl).bind fun a =>
    (lift (computed a)).bind fun _ => store fun arguments => by rw [asked arguments]; rfl

theorem binary {form : Form} {left right : List Kind} {f : Value → Value → Except Fault Value}
    (asked : form = .arguments → i.opcode.signature = [.var, .symbol, .symbol])
    (computed : ∀ a b, Computed (f a b)) :
    Raising i (binary i form left right f : Action Out Diag Unit) :=
  (twoOperands (fun arguments => by rw [asked arguments]; rfl)
    (fun arguments => by rw [asked arguments]; rfl)).bind fun (a, b) =>
      (lift (computed a b)).bind fun _ => store fun arguments => by rw [asked arguments]; rfl

theorem jumpIf {form : Form} {whenEqual : Bool} (h : i.opcode = .jumpIf form whenEqual) :
    Raising i (jumpIf i form whenEqual : Action Out Diag Unit) := by
  refine (branchTarget (by cases form <;> rw [h] <;> rfl) (by rw [h]; rfl)).bind fun target =>
    (twoOperands (fun arguments => by rw [h, arguments]; rfl)
      (fun arguments => by rw [h, arguments]; rfl)).bind fun (a, b) =>
        (lift .of_asFault).bind fun equal => ?_
  split
  · exact goTo
  · exact pure

end Raising

variable [Sink Out] [Sink Diag]

theorem step_raising (i : Instruction) : Raising i (step i : Action Out Diag (Option Halt)) := by
  obtain ⟨opcode, order, arguments⟩ := i
  cases opcode with
  | move =>
    exact .proceed (.variableAt rfl fun v given => (Raising.symbol rfl).bind fun _ =>
      .assign given)
  | createFrame => exact .proceed .create
  | pushFrame => exact .proceed .pushFrame
  | popFrame => exact .proceed .popFrame
  | declare => exact .proceed (.variableAt rfl fun v given => .declare given)
  | call => exact .proceed ((Raising.branchTarget rfl rfl).bind fun _ _ => rfl)
  | ret => exact .proceed .ret
  | push => exact .proceed ((Raising.symbol rfl).bind fun _ => .push)
  | pop =>
    exact .proceed (.variableAt rfl fun v given => Raising.takeOne.bind fun _ => .assign given)
  | clear => exact .proceed .clear
  | binary form op =>
    exact .proceed (.binary (by rintro rfl; rfl) fun _ _ => .of_binary)
  | unary form op => exact .proceed (.unary (by rintro rfl; rfl) fun _ => .of_unary)
  | read =>
    exact .proceed (.variableAt rfl fun v given => (Raising.kindAt rfl).bind fun _ =>
      Raising.readLine.bind fun _ => .assign given)
  | write => exact .proceed ((Raising.symbol rfl).bind fun _ => .writeOutput)
  | concat => exact .proceed (.binary (fun _ => rfl) fun _ _ => .of_concat)
  | length => exact .proceed (.unary (fun _ => rfl) fun _ => .of_length)
  | getChar => exact .proceed (.binary (fun _ => rfl) fun _ _ => .of_getChar)
  | setChar =>
    exact .proceed (.variableAt rfl fun v given => (Raising.read given).bind fun _ =>
      (Raising.lift .of_expectString).bind fun _ => (Raising.operand rfl).bind fun _ =>
        (Raising.lift .of_expectInt).bind fun _ => (Raising.operand rfl).bind fun _ =>
          (Raising.lift .of_expectString).bind fun _ => (Raising.lift .of_asFault).bind fun _ =>
            .assign given)
  | kindOf =>
    exact .proceed (.variableAt rfl fun v given => (Raising.kindName rfl).bind fun _ =>
      .assign given)
  | label => exact .proceed .pure
  | jump => exact .proceed ((Raising.branchTarget rfl rfl).bind fun _ => .goTo)
  | jumpIf form whenEqual => exact .proceed (.jumpIf rfl)
  | exit =>
    refine (Raising.operand rfl).bind fun a => (Raising.lift .of_expectInt).bind fun code => ?_
    split
    · exact .pure
    · exact .throw fun _ => .invalidExitCode
  | print => exact .proceed ((Raising.symbol rfl).bind fun _ => .writeDiagnostics)
  | dump => exact .proceed (Raising.get.bind fun _ => .writeDiagnostics)

end Machine

end IppCode
