import IppCode.Proofs.Labels
import IppCode.Proofs.Machine.Equality
import IppCode.Proofs.Machine.Failure
import IppCode.Proofs.Machine.History
import IppCode.Proofs.Machine.Precedence

/-!
# Grounds of faults

A fault that speaks of operands is borne out by the operands that the instruction found: one of them
is of a kind that is not accepted there, the two that are compared are of different kinds, or the
stack holds too few (`step_grounds`). Once its operands are accepted, an instruction has no fault
over their kinds, except that two values cannot be compared. Only the destination of `SETCHAR` is
not checked before it is taken as a string (`setChar_destination_unchecked`). The report names the
instruction dispatched last (`faults_grounded`).
-/

namespace IppCode

def OperatorError.isMismatch : OperatorError → Bool
  | kindMismatch _ _ => true
  | _ => false

/-- Faults that do not speak of the values or the number of operands. -/
def Fault.isPlain : Fault → Bool
  | badOperand _ _ _ | operator _ _ | stackUnderflow _ _ _ | duplicateLabel _ => false
  | _ => true

namespace Fault

@[simp] theorem isPlain_frame {e : FrameError} : (frame e).isPlain = true := rfl

@[simp] theorem isPlain_undefinedLabel {name : String} : (undefinedLabel name).isPlain = true := rfl

@[simp] theorem isPlain_emptyCallStack : emptyCallStack.isPlain = true := rfl

@[simp] theorem isPlain_invalidExitCode {code : Int64} : (invalidExitCode code).isPlain = true :=
  rfl

@[simp] theorem isPlain_io {text : String} : (io text).isPlain = true := rfl

end Fault

namespace Opcode

/-- The kinds that are accepted of the operand at an index. -/
def accepts : Opcode → Nat → List Kind
  | setChar, 2 => [.string]
  | setChar, 1 | exit, 0 => [.int]
  | opcode, index => opcode.accepted index

def compares : Opcode → Bool
  | binary _ (.comparison _) | jumpIf _ _ => true
  | _ => false

def demands : Opcode → Bool
  | pop | binary _ _ | unary _ _ | concat | length | getChar | setChar | jumpIf _ _ | exit => true
  | _ => false

end Opcode

structure Value.Incomparable (x y : Value) : Prop where
  kinds : x.kind ≠ y.kind
  left : x ≠ .nil
  right : y ≠ .nil

section
variable {x y z : Value} {e : OperatorError} {opcode : Opcode}

theorem errorOf_eq_some {ε α : Type} {result : Except ε α} {e : ε} :
    errorOf result = some e ↔ result = .error e := by
  cases result <;> simp [errorOf]

theorem Value.compare?_error (error : x.compare? y = .error e) :
    e = .kindMismatch x.kind y.kind ∧ (x.kind = y.kind → x = .nil) := by
  cases x <;> cases y <;> simp_all [compare?, kind]

theorem error_of_map {ε α β : Type} {result : Except ε α} {f : α → β} {e : ε}
    (error : result.map f = .error e) : result = .error e := by
  rwa [← errorOf_eq_some, Machine.errorOf_map, errorOf_eq_some] at error

theorem ArithmeticOp.onInts_error {op : ArithmeticOp} {n k : Int64}
    (error : op.onInts n k = .error e) : e = .divisionByZero := by
  cases op with
  | add | sub | mul => cases error
  | idiv | div =>
    simp only [onInts] at error
    split at error
    · exact (Except.error.inj error).symm
    · cases error

theorem ArithmeticOp.onFloats_error {op : ArithmeticOp} {a b : Binary64}
    (error : op.onFloats a b = .error e) : e = .divisionByZero := by
  cases op with
  | add | sub | mul => cases error
  | idiv | div =>
    simp only [onFloats] at error
    split at error
    · exact (Except.error.inj error).symm
    · cases error

theorem ArithmeticOp.apply_error {op : ArithmeticOp} (left : x.kind ∈ Kind.numeric)
    (right : y.kind ∈ Kind.numeric) (error : op.apply x y = .error e) : e = .divisionByZero := by
  cases x with
  | int n =>
    cases y with
    | int k => exact onInts_error error
    | float b => exact onFloats_error (error_of_map error)
    | _ => simp [Kind.numeric, Value.kind] at right
  | float a =>
    cases y with
    | int k => exact onFloats_error (error_of_map error)
    | float b => exact onFloats_error (error_of_map error)
    | _ => simp [Kind.numeric, Value.kind] at right
  | _ => simp [Kind.numeric, Value.kind] at left

theorem LogicOp.apply_ok (op : LogicOp) (left : x.kind ∈ [Kind.bool])
    (right : y.kind ∈ [Kind.bool]) : ∃ t, op.apply x y = .ok t := by
  cases x with
  | bool a =>
    cases y with
    | bool b => cases op <;> exact ⟨_, rfl⟩
    | _ => simp [Value.kind] at right
  | _ => simp [Value.kind] at left

theorem ComparisonOp.apply_error {op : ComparisonOp}
    (left : x.kind ∈ (BinaryOp.comparison op).leftKinds)
    (right : y.kind ∈ (BinaryOp.comparison op).rightKinds) (error : op.apply x y = .error e) :
    e = .kindMismatch x.kind y.kind ∧ x.Incomparable y := by
  cases op with
  | eq =>
    by_cases comparable : x.kind = y.kind ∨ x = .nil ∨ y = .nil
    · obtain ⟨t, ok, -⟩ := Value.eq_apply comparable
      cases ok.symm.trans error
    · simp only [not_or] at comparable
      obtain ⟨kinds, first, second⟩ := comparable
      have mismatch := Value.eq_apply_of_ne kinds first second
      exact ⟨Except.error.inj (error.symm.trans mismatch), kinds, first, second⟩
  | lt | gt =>
    have first : x ≠ .nil := by
      rintro rfl
      simp [BinaryOp.leftKinds, Kind.ordered, Value.kind] at left
    have second : y ≠ .nil := by
      rintro rfl
      simp [BinaryOp.rightKinds, BinaryOp.leftKinds, Kind.ordered, Value.kind] at right
    have compared : x.compare? y = .error e := error_of_map error
    obtain ⟨mismatch, nil⟩ := Value.compare?_error compared
    exact ⟨mismatch, fun same => first (nil same), first, second⟩

theorem position_error {length : Nat} {index : Int64} (error : position length index = .error e) :
    e.isMismatch = false := by
  unfold position at error
  split at error
  · cases error
  · exact Except.error.inj error ▸ rfl

theorem asFault_error {α : Type} {result : Except OperatorError α} {fault : Fault}
    (error : asFault opcode result = .error fault) :
    ∃ e, result = .error e ∧ fault = .operator opcode e := by
  cases result with
  | ok a => cases error
  | error e => exact ⟨e, rfl, (Except.error.inj error).symm⟩

theorem asFault_ok {α : Type} {result : Except OperatorError α} {a : α}
    (ok : asFault opcode result = .ok a) : result = .ok a := by
  cases result with
  | ok b => exact congrArg Except.ok (Except.ok.inj ok)
  | error e => cases ok

theorem expectInt_error {fault : Fault} (error : expectInt opcode x = .error fault) :
    x.kind ∉ [Kind.int] ∧ fault = .badOperand opcode x [.int] := by
  cases x with
  | int n => cases error
  | _ => exact ⟨by simp [Value.kind], (Except.error.inj error).symm⟩

theorem expectString_error {fault : Fault} (error : expectString opcode x = .error fault) :
    x.kind ∉ [Kind.string] ∧ fault = .badOperand opcode x [.string] := by
  cases x with
  | string s => cases error
  | _ => exact ⟨by simp [Value.kind], (Except.error.inj error).symm⟩

theorem charOfCode_error {code : Int64} (error : charOfCode code = .error e) :
    e.isMismatch = false := by
  unfold charOfCode at error
  split at error
  · cases error
  · exact Except.error.inj error ▸ rfl

theorem floatToInt_error {x : Binary64} (error : floatToInt x = .error e) :
    e.isMismatch = false := by
  unfold floatToInt at error
  simp only at error
  split at error
  · exact Except.error.inj error ▸ rfl
  · cases error

theorem setChar_error {s t : String} {index : Int64} (error : setChar s index t = .error e) :
    e.isMismatch = false := by
  unfold setChar at error
  cases place : position s.toList.length index with
  | error e' =>
    rw [place] at error
    exact Except.error.inj error ▸ position_error place
  | ok k =>
    rw [place] at error
    cases characters : t.toList with
    | nil =>
      simp only [characters] at error
      exact Except.error.inj error ▸ rfl
    | cons c rest =>
      simp only [characters] at error
      cases error

theorem Opcode.error?_on_accepted {values : List Value} (error : opcode.error? values = some e)
    (kinds : ∀ k x, values[k]? = some x → x.kind ∈ opcode.accepts (k + 1)) :
    e.isMismatch = false ∨ opcode.compares = true ∧
      ∃ x y, values = [x, y] ∧ e = .kindMismatch x.kind y.kind ∧ x.Incomparable y := by
  fun_cases error? with
  | case1 form op x y =>
    have zero := ArithmeticOp.apply_error (kinds 0 x rfl) (kinds 1 y rfl) (errorOf_eq_some.1 error)
    exact .inl (zero ▸ rfl)
  | case2 form op x y =>
    have mismatch :=
      ComparisonOp.apply_error (kinds 0 x rfl) (kinds 1 y rfl) (errorOf_eq_some.1 error)
    exact .inr ⟨rfl, x, y, rfl, mismatch⟩
  | case3 form op x y =>
    obtain ⟨t, ok⟩ := LogicOp.apply_ok op (kinds 0 x rfl) (kinds 1 y rfl)
    cases ok.symm.trans (errorOf_eq_some.1 error)
  | case4 form s index =>
    have outside := error_of_map (error_of_map (errorOf_eq_some.1 error))
    exact .inl (position_error outside)
  | case5 form code => exact .inl (charOfCode_error (errorOf_eq_some.1 error))
  | case6 form x => exact .inl (floatToInt_error (errorOf_eq_some.1 error))
  | case7 s index => exact .inl (position_error (error_of_map (errorOf_eq_some.1 error)))
  | case8 => simp_all [error?]

end

namespace Instruction

/-- What the instruction finds as the operand at an index. Operands on the stack have the indices
that they would have as arguments. -/
def Operand (i : Instruction) (fs : Frames) (stack : List Value) (index : Nat) (x : Value) : Prop :=
  if i.opcode.operands = 0 then fs.symbol i index = .ok x
  else stack[i.opcode.operands - index]? = some x

/-- What `SETCHAR` finds in its destination, whatever it is. -/
structure Unchecked (i : Instruction) (fs : Frames) (x : Value) : Prop where
  opcode : i.opcode = .setChar
  held : ∃ v, i.variableAt 0 = .ok v ∧ fs.read v = .ok x

/-- What there is to a fault that the instruction reports. -/
inductive Grounds (i : Instruction) (fs : Frames) (stack : List Value) : Fault → Prop
  | rejected {index : Nat} {x : Value} {fault : Fault} : i.Operand fs stack index x →
      expect i.opcode (i.opcode.accepts index) x = .error fault → Grounds i fs stack fault
  | unwrapped {x : Value} {fault : Fault} : i.Unchecked fs x →
      expectString i.opcode x = .error fault → Grounds i fs stack fault
  | mismatched {x y : Value} : i.opcode.compares = true → i.Operand fs stack 1 x →
      i.Operand fs stack 2 y → x.Incomparable y →
      Grounds i fs stack (.operator i.opcode (.kindMismatch x.kind y.kind))
  | failed {e : OperatorError} : e.isMismatch = false → Grounds i fs stack (.operator i.opcode e)
  | underflow {needed depth : Nat} : needed = i.opcode.operands → depth = stack.length →
      depth < needed → Grounds i fs stack (.stackUnderflow i.opcode needed depth)
  | plain {fault : Fault} : fault.isPlain = true → Grounds i fs stack fault

variable {i : Instruction} {fs : Frames} {stack : List Value} {x y : Value} {values : List Value}
  {fault : Fault} {index : Nat}

def Finds (i : Instruction) (fs : Frames) (stack values : List Value) : Prop :=
  ∀ k x, values[k]? = some x →
    i.Operand fs stack (k + 1) x ∧ x.kind ∈ i.opcode.accepts (k + 1)

theorem finds_one (operand : i.Operand fs stack 1 x) (kind : x.kind ∈ i.opcode.accepts 1) :
    i.Finds fs stack [x] := by
  intro k z found
  cases k with
  | zero =>
    cases found
    exact ⟨operand, kind⟩
  | succ k => cases found

theorem finds_two (operand : i.Operand fs stack 1 x) (operand' : i.Operand fs stack 2 y)
    (kind : x.kind ∈ i.opcode.accepts 1) (kind' : y.kind ∈ i.opcode.accepts 2) :
    i.Finds fs stack [x, y] := by
  intro k z found
  cases k with
  | zero =>
    cases found
    exact ⟨operand, kind⟩
  | succ k =>
    cases k with
    | zero =>
      cases found
      exact ⟨operand', kind'⟩
    | succ k => cases found

theorem Grounds.unfit {opcode : Opcode} {kinds : List Kind} (grounds : i.Grounds fs stack fault)
    (rejected : fault = .badOperand opcode x kinds) : x.kind ∉ kinds := by
  subst rejected
  cases grounds with
  | rejected operand refused =>
    obtain ⟨unfit, same⟩ := expect_eq_error.1 refused
    cases same
    exact unfit
  | unwrapped unchecked refused =>
    obtain ⟨unfit, same⟩ := expectString_error refused
    cases same
    exact unfit
  | plain plain => cases plain

theorem Grounds.unchecked (grounds : i.Grounds fs stack fault)
    (accepted : ∀ index x, i.Operand fs stack index x → x.kind ∈ i.opcode.accepts index)
    {opcode : Opcode} {kinds : List Kind} (rejected : fault = .badOperand opcode x kinds) :
    i.Unchecked fs x := by
  subst rejected
  cases grounds with
  | rejected operand refused =>
    exact absurd (accepted _ _ operand) (expect_eq_error.1 refused).1
  | unwrapped unchecked refused =>
    obtain ⟨-, same⟩ := expectString_error refused
    cases same
    exact unchecked
  | plain plain => cases plain

theorem operand_of_symbol (untaken : i.opcode.operands = 0) (ok : fs.symbol i index = .ok x) :
    i.Operand fs stack index x := by
  rw [Operand, if_pos untaken]
  exact ok

theorem operand_of_stack {place : Nat} (taken : i.opcode.operands = place + index)
    (least : 0 < index) (found : stack[place]? = some x) : i.Operand fs stack index x := by
  have here : i.opcode.operands - index = place := by omega
  rw [Operand, if_neg (by omega), here]
  exact found

end Instruction

def AlwaysPlain {α : Type} (result : Except Fault α) : Prop :=
  ∀ fault, result = .error fault → fault.isPlain = true

namespace AlwaysPlain

variable {α : Type} {i : Instruction} {index : Nat} {fs : Frames}

theorem iff {result : Except Fault α} :
    (∀ fault, result = .error fault → fault.isPlain = true) ↔ AlwaysPlain result := Iff.rfl

theorem of_misfit {shape : Shape} {fault : Fault} (misfit : i.Misfit index shape fault) :
    fault.isPlain = true := by
  cases misfit <;> rfl

theorem of_symbolFault {fault : Fault} (failed : fs.SymbolFault i index fault) :
    fault.isPlain = true := by
  cases failed with
  | misfit misfit => exact of_misfit misfit
  | literal | frame => rfl

@[simp] theorem variableAt : AlwaysPlain (i.variableAt index) :=
  fun _ error => of_misfit (Instruction.variableAt_error error)

@[simp] theorem labelAt : AlwaysPlain (i.labelAt index) :=
  fun _ error => of_misfit (Instruction.labelAt_error error)

@[simp] theorem kindAt : AlwaysPlain (i.kindAt index) :=
  fun _ error => of_misfit (Instruction.kindAt_error error)

@[simp] theorem symbol : AlwaysPlain (fs.symbol i index) :=
  fun _ error => of_symbolFault (Frames.symbol_error error)

@[simp] theorem kindName : AlwaysPlain (fs.kindName i index) :=
  fun _ error => of_symbolFault (Frames.kindName_error error)

end AlwaysPlain

namespace Machine

variable {Out Diag α β : Type} {m : Machine Out Diag} {i : Instruction}

theorem store_plain {form : Form} {z : Value} :
    Ensures (store i form z) m (fun _ _ => True) (fun fault _ => fault.isPlain = true) := by
  cases form <;> simp [store, AlwaysPlain.iff]

/-! ## Instructions with operands -/

section
variable {form : Form} {left right : List Kind} {fault : Fault} {index : Nat}

theorem grounds_of_operand (untaken : i.opcode.operands = 0)
    (error : m.frames.operand i index (i.opcode.accepts index) = .error fault) :
    i.Grounds m.frames m.stack fault := by
  rcases Frames.operand_eq_error.1 error with failed | ⟨x, here, unfit, rfl⟩
  · exact .plain (AlwaysPlain.symbol _ failed)
  · exact .rejected (Instruction.operand_of_symbol untaken here) (expect_eq_error.2 ⟨unfit, rfl⟩)

theorem grounds_of_evaluation {result : Except Fault Value} {values : List Value}
    (found : i.Finds m.frames m.stack values)
    (evaluates : errorOf result = (i.opcode.error? values).map (.operator i.opcode))
    (error : result = .error fault) : i.Grounds m.frames m.stack fault := by
  rw [error] at evaluates
  obtain ⟨e, failed, rfl⟩ := Option.map_eq_some_iff.1 evaluates.symm
  rcases Opcode.error?_on_accepted failed fun k x here => (found k x here).2 with
    other | ⟨compares, x, y, rfl, rfl, incomparable⟩
  · exact .failed other
  · exact .mismatched compares (found 0 x rfl).1 (found 1 y rfl).1 incomparable

theorem oneOperand_grounds (kinds : i.opcode.accepts 1 = left)
    (untaken : form = .arguments → i.opcode.operands = 0)
    (taken : form = .stack → i.opcode.operands = 1) :
    Ensures (oneOperand i form left) m (fun x _ => i.Finds m.frames m.stack [x])
      (fun fault _ => i.Grounds m.frames m.stack fault) := by
  subst kinds
  cases form with
  | arguments =>
    rw [oneOperand, ensures_view]
    refine ⟨fun x ok => ?_, fun fault error => grounds_of_operand (untaken rfl) error⟩
    obtain ⟨here, fit⟩ := Frames.operand_eq_ok.1 ok
    exact Instruction.finds_one (Instruction.operand_of_symbol (untaken rfl) here) fit
  | stack =>
    rw [oneOperand, ensures_bind, ensures_takeOne]
    refine ⟨fun x rest top => ?_, fun empty => ?_⟩
    · have operand : i.Operand m.frames m.stack 1 x :=
        Instruction.operand_of_stack (taken rfl) Nat.one_pos (by rw [top]; rfl)
      rw [ensures_bind, ensures_lift]
      refine ⟨fun _ ok => ?_, fun fault error => ?_⟩
      · exact Instruction.finds_one operand (expect_eq_ok.1 ok)
      · exact .rejected operand error
    · exact .underflow (taken rfl).symm (by rw [empty]; rfl) Nat.one_pos

theorem twoOperands_grounds (first : i.opcode.accepts 1 = left)
    (second : i.opcode.accepts 2 = right) (untaken : form = .arguments → i.opcode.operands = 0)
    (taken : form = .stack → i.opcode.operands = 2) :
    Ensures (twoOperands i form left right) m
      (fun (x, y) now => i.Finds m.frames m.stack [x, y] ∧ now.next = m.next)
      (fun fault _ => i.Grounds m.frames m.stack fault) := by
  subst first second
  cases form with
  | arguments =>
    rw [twoOperands, ensures_bind, ensures_view]
    refine ⟨fun x ok => ?_, fun fault error => grounds_of_operand (untaken rfl) error⟩
    rw [ensures_bind, ensures_view]
    refine ⟨fun y ok' => ?_, fun fault error => grounds_of_operand (untaken rfl) error⟩
    obtain ⟨here, fit⟩ := Frames.operand_eq_ok.1 ok
    obtain ⟨here', fit'⟩ := Frames.operand_eq_ok.1 ok'
    have operand : i.Operand m.frames m.stack 1 x :=
      Instruction.operand_of_symbol (untaken rfl) here
    have operand' : i.Operand m.frames m.stack 2 y :=
      Instruction.operand_of_symbol (untaken rfl) here'
    exact ⟨Instruction.finds_two operand operand' fit fit', rfl⟩
  | stack =>
    rw [twoOperands, ensures_bind, ensures_takeTwo]
    refine ⟨fun x y rest top => ?_, fun short => ?_⟩
    · have operand : i.Operand m.frames m.stack 1 x :=
        Instruction.operand_of_stack (taken rfl) Nat.one_pos (by rw [top]; rfl)
      have operand' : i.Operand m.frames m.stack 2 y :=
        Instruction.operand_of_stack (taken rfl) Nat.two_pos (by rw [top]; rfl)
      rw [ensures_bind, ensures_lift]
      refine ⟨fun _ ok => ?_, fun fault error => ?_⟩
      · rw [ensures_bind, ensures_lift]
        refine ⟨fun _ ok' => ?_, fun fault error => ?_⟩
        · have fit := expect_eq_ok.1 ok
          exact ⟨Instruction.finds_two operand operand' fit (expect_eq_ok.1 ok'), rfl⟩
        · exact .rejected operand' error
      · exact .rejected operand error
    · exact .underflow (taken rfl).symm rfl short

theorem unary_grounds {f : Value → Except Fault Value} (kinds : i.opcode.accepts 1 = left)
    (untaken : form = .arguments → i.opcode.operands = 0)
    (taken : form = .stack → i.opcode.operands = 1)
    (evaluates : ∀ z, z.kind ∈ left →
      errorOf (f z) = (i.opcode.error? [z]).map (.operator i.opcode)) :
    Ensures (unary i form left f) m (fun _ _ => True)
      (fun fault _ => i.Grounds m.frames m.stack fault) := by
  rw [unary, ensures_bind]
  refine (oneOperand_grounds kinds untaken taken).mono ?_ fun _ _ grounds => grounds
  intro x now found
  have fit : x.kind ∈ left := kinds ▸ (found 0 x rfl).2
  rw [ensures_bind, ensures_lift]
  refine ⟨fun z _ => ?_, fun fault error => ?_⟩
  · exact store_plain.mono (fun _ _ _ => trivial) fun _ _ => .plain
  · exact grounds_of_evaluation found (evaluates x fit) error

theorem binary_grounds {f : Value → Value → Except Fault Value} (first : i.opcode.accepts 1 = left)
    (second : i.opcode.accepts 2 = right) (untaken : form = .arguments → i.opcode.operands = 0)
    (taken : form = .stack → i.opcode.operands = 2)
    (evaluates : ∀ y z, y.kind ∈ left → z.kind ∈ right →
      errorOf (f y z) = (i.opcode.error? [y, z]).map (.operator i.opcode)) :
    Ensures (binary i form left right f) m (fun _ _ => True)
      (fun fault _ => i.Grounds m.frames m.stack fault) := by
  rw [binary, ensures_bind]
  refine (twoOperands_grounds first second untaken taken).mono ?_ fun _ _ grounds => grounds
  rintro ⟨x, y⟩ now ⟨found, -⟩
  have fit : x.kind ∈ left := first ▸ (found 0 x rfl).2
  have fit' : y.kind ∈ right := second ▸ (found 1 y rfl).2
  rw [ensures_bind, ensures_lift]
  refine ⟨fun z _ => ?_, fun fault error => ?_⟩
  · exact store_plain.mono (fun _ _ _ => trivial) fun _ _ => .plain
  · exact grounds_of_evaluation found (evaluates x y fit fit') error

theorem pop_grounds (opcode : i.opcode = .pop) :
    Ensures (pop i) m (fun _ _ => True) (fun fault _ => i.Grounds m.frames m.stack fault) := by
  rw [pop, ensures_bind, ensures_lift]
  refine ⟨fun v _ => ?_, fun fault error => .plain (AlwaysPlain.variableAt fault error)⟩
  rw [ensures_bind, ensures_takeOne]
  refine ⟨fun x rest _ => ?_, fun empty => ?_⟩
  · exact ensures_assign.2 ⟨fun _ _ => trivial, fun e _ => .plain rfl⟩
  · exact .underflow (by rw [opcode]; rfl) (by rw [empty]; rfl) Nat.one_pos

theorem jumpIf_operands {whenEqual : Bool} (opcode : i.opcode = .jumpIf form whenEqual) :
    Ensures (twoOperands i form Kind.all Kind.all) m
      (fun (x, y) now => i.Finds m.frames m.stack [x, y] ∧ now.next = m.next)
      (fun fault _ => i.Grounds m.frames m.stack fault) :=
  twoOperands_grounds (by rw [opcode]; rfl) (by rw [opcode]; rfl)
    (fun arguments => by rw [opcode, arguments]; rfl) fun stack => by rw [opcode, stack]; rfl

theorem jumpIf_grounds {whenEqual : Bool} (opcode : i.opcode = .jumpIf form whenEqual) :
    Ensures (jumpIf i form whenEqual) m (fun _ _ => True)
      (fun fault _ => i.Grounds m.frames m.stack fault) := by
  rw [jumpIf, ensures_bind, ensures_branchTarget]
  refine ⟨fun name _ => ⟨fun position _ => ?_, fun _ => .plain rfl⟩, fun fault error => ?_⟩
  · rw [ensures_bind]
    refine (jumpIf_operands opcode).mono ?_ fun _ _ grounds => grounds
    rintro ⟨x, y⟩ now ⟨found, -⟩
    rw [ensures_bind, ensures_lift]
    refine ⟨fun equal _ => ?_, fun fault error => ?_⟩
    · simp
    · obtain ⟨e, failed, rfl⟩ := asFault_error error
      obtain ⟨rfl, incomparable⟩ :=
        ComparisonOp.apply_error (Kind.mem_all x.kind) (Kind.mem_all y.kind) failed
      exact .mismatched (by rw [opcode]; rfl) (found 0 x rfl).1 (found 1 y rfl).1 incomparable
  · exact .plain (AlwaysPlain.labelAt fault error)

theorem unwrapped_grounds {kind : Kind} {unwrap : Value → Except Fault α}
    {next : α → Action Out Diag β} {Q : β → Machine Out Diag → Prop}
    (untaken : i.opcode.operands = 0) (accepts : i.opcode.accepts index = [kind])
    (total : ∀ x fault, unwrap x = .error fault → x.kind ∉ [kind])
    (later : ∀ a, Ensures (next a) m Q fun fault _ => i.Grounds m.frames m.stack fault) :
    Ensures (view (·.operand i index [kind]) >>= fun x => lift (unwrap x) >>= next) m Q
      (fun fault _ => i.Grounds m.frames m.stack fault) := by
  rw [← accepts, ensures_bind, ensures_view]
  refine ⟨fun x ok => ?_, fun fault error => grounds_of_operand untaken error⟩
  rw [ensures_bind, ensures_lift]
  refine ⟨fun a _ => later a, fun fault error => ?_⟩
  have fit := (Frames.operand_eq_ok.1 ok).2
  exact absurd (accepts ▸ fit) (total x fault error)

theorem setChar_grounds (opcode : i.opcode = .setChar) :
    Ensures (setChar i) m (fun _ _ => True) (fun fault _ => i.Grounds m.frames m.stack fault) := by
  have untaken : i.opcode.operands = 0 := by rw [opcode]; rfl
  rw [setChar, ensures_bind, ensures_lift]
  refine ⟨fun v target => ?_, fun fault error => .plain (AlwaysPlain.variableAt fault error)⟩
  rw [ensures_bind, ensures_view]
  refine ⟨fun old read => ?_, fun fault error => ?_⟩
  · rw [ensures_bind, ensures_lift]
    refine ⟨fun s _ => ?_, fun fault error => ?_⟩
    · refine unwrapped_grounds untaken (by rw [opcode]; rfl)
        (fun _ _ error => (expectInt_error error).1) fun k => ?_
      refine unwrapped_grounds untaken (by rw [opcode]; rfl)
        (fun _ _ error => (expectString_error error).1) fun t => ?_
      rw [ensures_bind, ensures_lift]
      refine ⟨fun z _ => ensures_assign.2 ⟨fun _ _ => trivial, fun e _ => .plain rfl⟩, ?_⟩
      intro fault error
      obtain ⟨e, failed, rfl⟩ := asFault_error error
      exact .failed (setChar_error failed)
    · exact .unwrapped ⟨opcode, v, target, mapError_frame_eq_ok.1 read⟩ error
  · obtain ⟨e, -, rfl⟩ := mapError_frame_eq_error.1 error
    exact .plain rfl

theorem exit_grounds (opcode : i.opcode = .exit) :
    Ensures (exit i) m (fun _ _ => True) (fun fault _ => i.Grounds m.frames m.stack fault) := by
  rw [exit]
  refine unwrapped_grounds (by rw [opcode]; rfl) (by rw [opcode]; rfl)
    (fun _ _ error => (expectInt_error error).1) fun code => ?_
  rw [ensures_dite]
  exact ⟨fun _ => trivial, fun _ => .plain rfl⟩

end

section
variable [Sink Out] [Sink Diag]

theorem step_plain (undemanding : i.opcode.demands = false) :
    Ensures (step i) m (fun _ _ => True) (fun fault _ => fault.isPlain = true) := by
  cases h : i.opcode with
  | move => simp [step, h, move, AlwaysPlain.iff]
  | createFrame | pushFrame | popFrame => simp [step, h]
  | declare => simp [step, h, declare, AlwaysPlain.iff]
  | call => simp [step, h, call, ensures_branchTarget, AlwaysPlain.iff]
  | ret => simp [step, h]
  | push => simp [step, h, pushSymbol, AlwaysPlain.iff]
  | clear => simp [step, h]
  | read => simp [step, h, read, AlwaysPlain.iff]
  | write => simp [step, h, write, AlwaysPlain.iff]
  | kindOf => simp [step, h, kindOf, AlwaysPlain.iff]
  | label => simp [step, h]
  | jump => simp [step, h, jump, ensures_branchTarget, AlwaysPlain.iff]
  | print => simp [step, h, print, AlwaysPlain.iff]
  | dump => simp [step, h, breakpoint]
  | _ => simp [h, Opcode.demands] at undemanding

theorem step_grounds (i : Instruction) (m : Machine Out Diag) :
    Ensures (step i) m (fun _ _ => True) (fun fault _ => i.Grounds m.frames m.stack fault) := by
  by_cases demands : i.opcode.demands = true
  · obtain ⟨opcode, order, arguments⟩ := i
    cases opcode with
    | pop => exact ensures_proceed.2 (pop_grounds rfl)
    | binary form op =>
      exact ensures_proceed.2 (binary_grounds rfl rfl (by rintro rfl; rfl) (by rintro rfl; rfl)
        fun _ _ => errorOf_binary)
    | unary form op =>
      exact ensures_proceed.2 (unary_grounds rfl (by rintro rfl; rfl) (by rintro rfl; rfl)
        fun _ => errorOf_unary)
    | concat =>
      exact ensures_proceed.2 (binary_grounds rfl rfl (fun _ => rfl) (by simp)
        fun _ _ => errorOf_concat)
    | length =>
      exact ensures_proceed.2 (unary_grounds rfl (fun _ => rfl) (by simp) fun _ => errorOf_length)
    | getChar =>
      exact ensures_proceed.2 (binary_grounds rfl rfl (fun _ => rfl) (by simp)
        fun _ _ => errorOf_getChar)
    | setChar => exact ensures_proceed.2 (setChar_grounds rfl)
    | jumpIf form whenEqual => exact ensures_proceed.2 (jumpIf_grounds rfl)
    | exit => exact exit_grounds rfl
    | _ => cases demands
  · exact (step_plain (by simpa using demands)).mono (fun _ _ _ => trivial) fun _ _ => .plain

/-! ## Positions -/

variable {p : Program} {after : Machine Out Diag} {e : RuntimeError}

/-- A dispatch fails at the instruction it gets to, as the operands there bear out. -/
structure Grounded (p : Program) (m after : Machine Out Diag) (e : RuntimeError) : Prop where
  dispatched : after.current = m.next
  position : e.position = after.current + 1
  inside : e.position ≤ p.instructions.size
  grounds : ∃ i, p.instructions[after.current]? = some i ∧ i.Grounds m.frames m.stack e.fault
  unfit : ∀ opcode x kinds, e.fault = .badOperand opcode x kinds → x.kind ∉ kinds
  accepted : ∀ i, p.instructions[after.current]? = some i →
    (∀ index x, i.Operand m.frames m.stack index x → x.kind ∈ i.opcode.accepts index) →
      ∀ opcode x kinds, e.fault = .badOperand opcode x kinds → i.Unchecked m.frames x

theorem advance_grounded (failed : advance p m = (after, some (.error e))) :
    Grounded p m after e := by
  cases advances_of_advance failed with
  | failed found error =>
    have current : after.current = m.next := ((step_books _ _).of_error error).current
    have inside : m.next < p.instructions.size := (Array.getElem?_eq_some_iff.1 found).1
    have grounds := (step_grounds _ _).of_error error
    refine ⟨current, by rw [current], inside, ⟨_, current ▸ found, grounds⟩, ?_, ?_⟩
    · exact fun opcode x kinds => grounds.unfit
    · intro i there accepted opcode x kinds rejected
      obtain rfl := Option.some.inj (found.symm.trans (current ▸ there))
      exact grounds.unchecked accepted rejected

/-- Labels are given up for a repeated name only, and what was demanded of the stack can be taken.
Whatever a machine fails with at a dispatch has grounds in the operands that it had, and none in
their kinds if those are accepted, unless `SETCHAR` finds no string in its destination. What an
execution returns is the fault of its last dispatch, or of a label that is declared twice or a sink
that cannot be flushed, and no position is zero. -/
theorem faults_grounded (p : Program) (m : Machine Out Diag) :
    (∀ e, p.decodeLabels = .error e → ∃ repeated, e = .duplicateLabel repeated) ∧
    (∀ opcode needed after, (requireDepth opcode (needed + 1)).run m = .ok () after →
      ∃ x rest, (takeTop opcode).run after = .ok x { m with stack := rest } ∧
        needed ≤ rest.length) ∧
    (∀ after e, advance p m = (after, some (.error e)) → Grounded p m after e) ∧
    ∀ limit after e, execute p limit m = (after, some (.error e)) → 0 < e.position ∧
      ((∃ repeated, p.labels = .error repeated ∧
        e = ⟨repeated.position, .duplicateLabel repeated.name⟩) ∨
      e.position = after.current + 1 ∧
        ∃ labels last stopped, p.labels = .ok labels ∧ Steps p { m with labels } last ∧
          after.current = stopped.current ∧
          (advance p last = (stopped, some (.error e)) ∧ Grounded p last stopped e ∨
            ∃ halt, advance p last = (stopped, some (.ok halt)) ∧
              (stopped.flush (.ok halt)).2 = .error e)) := by
  refine ⟨fun e refused => ?_, fun opcode needed after => takeTop_of_requireDepth,
    fun after e => advance_grounded, fun limit after e failed => ?_⟩
  · obtain ⟨repeated, -, same⟩ := Program.decodeLabels_eq_error.1 refused
    exact ⟨repeated, same⟩
  rcases execute_eq_some failed with
    ⟨repeated, table, same⟩ | ⟨labels, last, stopped, final, table, steps, ends, flushed⟩
  · obtain rfl := Except.error.inj same
    obtain ⟨j, i, -, -, position⟩ := LabelTable.repeated_of_extend table
    exact ⟨position ▸ Nat.succ_pos _, .inl ⟨repeated, table, rfl⟩⟩
  · obtain ⟨output, diagnostics, kept⟩ := flush_fst stopped final
    obtain ⟨rfl, returned⟩ := Prod.ext_iff.1 flushed
    have current : (stopped.flush final).1.current = stopped.current := by rw [kept]
    cases final with
    | error e' =>
      obtain rfl := Except.error.inj returned
      have grounded := advance_grounded ends
      have place := grounded.position.trans (congrArg (· + 1) current.symm)
      exact ⟨place ▸ Nat.succ_pos _,
        .inr ⟨place, labels, last, stopped, table, steps, current, .inl ⟨ends, grounded⟩⟩⟩
    | ok halt =>
      rcases flush_ok stopped halt with ended | ⟨text, unflushed⟩
      · cases ended.symm.trans returned
      · obtain rfl := Except.error.inj (unflushed.symm.trans returned)
        have place : stopped.current + 1 = (stopped.flush (.ok halt)).1.current + 1 := by
          rw [current]
        exact ⟨Nat.succ_pos _,
          .inr ⟨place, labels, last, stopped, table, steps, current, .inr ⟨halt, ends, unflushed⟩⟩⟩

end

theorem faults_grounded_branch :
    ∃ (p : Program) (i : Instruction) (m after stopped : Machine Buffer Buffer),
      p = ⟨#[i, ⟨.label, 2, [.label "l"]⟩]⟩ ∧ i = ⟨.jumpIf .stack true, 1, [.label "l"]⟩ ∧
      m.stack = [.bool true, .int 1] ∧
      advance p m = (after, some (.error ⟨1, .operator i.opcode (.kindMismatch .int .bool)⟩)) ∧
      i.Grounds m.frames m.stack (.operator i.opcode (.kindMismatch .int .bool)) ∧
      execute p 1 { m with stack := [] } =
        (stopped, some (.error ⟨1, .stackUnderflow i.opcode 2 0⟩)) ∧ stopped.current = 0 := by
  let i : Instruction := ⟨.jumpIf .stack true, 1, [.label "l"]⟩
  let p : Program := ⟨#[i, ⟨.label, 2, [.label "l"]⟩]⟩
  let m : Machine Buffer Buffer :=
    { initial ⟨[], none⟩ Buffer.unbounded Buffer.unbounded false with
      stack := [.bool true, .int 1], labels := ⟨[("l", 1)]⟩ }
  have fails : advance p m =
      (_, some (.error ⟨1, .operator i.opcode (.kindMismatch .int .bool)⟩)) := rfl
  have falls : execute p 1 { m with stack := [] } =
      (_, some (.error ⟨1, .stackUnderflow i.opcode 2 0⟩)) := rfl
  obtain ⟨j, found, grounds⟩ := ((faults_grounded p m).2.2.1 _ _ fails).grounds
  obtain rfl : i = j := Option.some.inj found
  obtain ⟨-, duplicate | ⟨position, -⟩⟩ := (faults_grounded p _).2.2.2 _ _ _ falls
  · obtain ⟨repeated, table, -⟩ := duplicate
    cases table
  · exact ⟨p, i, m, _, _, rfl, rfl, rfl, fails, grounds, falls, Nat.succ.inj position.symm⟩

/-- All operands that `SETCHAR` checks are accepted here, and yet it rejects its destination. -/
theorem setChar_destination_unchecked :
    ∃ (p : Program) (i : Instruction) (start m stopped : Machine Buffer Buffer),
      p = ⟨#[⟨.declare, 1, [.var ⟨.global, "x"⟩]⟩,
        ⟨.move, 2, [.var ⟨.global, "x"⟩, .literal ⟨.int, "1"⟩]⟩, i]⟩ ∧
      i = ⟨.setChar, 3, [.var ⟨.global, "x"⟩, .literal ⟨.int, "0"⟩, .literal ⟨.string, "a"⟩]⟩ ∧
      start = initial ⟨[], none⟩ Buffer.unbounded Buffer.unbounded false ∧
      run p 2 start = (m, none) ∧
      (∀ index x, i.Operand m.frames m.stack index x →
        expect i.opcode (i.opcode.accepts index) x = .ok ()) ∧
      expectString i.opcode (.int 1) = .error (.badOperand .setChar (.int 1) [.string]) ∧
      execute p 3 start = (stopped, some (.error ⟨3, .badOperand .setChar (.int 1) [.string]⟩)) := by
  let i : Instruction :=
    ⟨.setChar, 3, [.var ⟨.global, "x"⟩, .literal ⟨.int, "0"⟩, .literal ⟨.string, "a"⟩]⟩
  let p : Program := ⟨#[⟨.declare, 1, [.var ⟨.global, "x"⟩]⟩,
    ⟨.move, 2, [.var ⟨.global, "x"⟩, .literal ⟨.int, "1"⟩]⟩, i]⟩
  let start : Machine Buffer Buffer :=
    initial ⟨[], none⟩ Buffer.unbounded Buffer.unbounded false
  have goes : run p 2 start = (_, none) := rfl
  have fails : execute p 3 start =
      (_, some (.error ⟨3, .badOperand .setChar (.int 1) [.string]⟩)) := rfl
  refine ⟨p, i, start, _, _, rfl, rfl, rfl, goes, fun index x operand => ?_, rfl, fails⟩
  rw [expect_eq_ok]
  rcases index with _ | _ | _ | later
  · exact Kind.mem_all _
  · obtain rfl : Value.int 0 = x := Except.ok.inj operand
    decide
  · obtain rfl : Value.string "a" = x := Except.ok.inj operand
    decide
  · exact Kind.mem_all _

end Machine

end IppCode
