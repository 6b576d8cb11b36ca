import IppCode.Proofs.Machine.Operand
import IppCode.Proofs.Machine.Outcome
import Mathlib.Data.List.Forall2

/-!
# Which fault is reported

An instruction that delivers a value to its first argument can fail at several points. It looks at
its operands from left to right, then computes, and then looks at the destination, and it reports
the first fault that there is in this order (`delivery_in_order`).
-/

namespace IppCode

def errorOf {ε α : Type} : Except ε α → Option ε
  | .ok _ => none
  | .error e => some e

namespace Opcode

/-- Instructions that work out a value from their other arguments and store it in the first. -/
def delivers : Opcode → Bool
  | move | kindOf | read | concat | length | getChar => true
  | binary .arguments _ | unary .arguments _ => true
  | _ => false

def accepted : Opcode → Nat → List Kind
  | binary _ op, 1 => op.leftKinds
  | binary _ op, 2 => op.rightKinds
  | unary _ op, 1 => op.kinds
  | concat, 1 | concat, 2 | length, 1 | getChar, 1 => [.string]
  | getChar, 2 => [.int]
  | _, _ => Kind.all

def error? : Opcode → List Value → Option OperatorError
  | binary _ (.arithmetic op), [x, y] => errorOf (op.apply x y)
  | binary _ (.comparison op), [x, y] => errorOf (op.apply x y)
  | binary _ (.logic op), [x, y] => errorOf (op.apply x y)
  | binary _ .charCode, [.string s, .int index] => errorOf (codeAt s index)
  | unary _ .intToChar, [.int code] => errorOf (charOfCode code)
  | unary _ .floatToInt, [.float x] => errorOf (floatToInt x)
  | getChar, [.string s, .int index] => errorOf (charAt s index)
  | _, _ => none

end Opcode

def Frames.value? (fs : Frames) : Argument → Option Value
  | .var v => (fs.read v).toOption
  | .literal l => l.value?
  | _ => none

namespace Machine

variable {Out Diag : Type}

/-- What prevents an operand from being used. A `READ` has the next line as its operand, and `TYPE`
does not mind a variable without a value. -/
def unreadable? (m : Machine Out Diag) (opcode : Opcode) : Argument → Option Fault
  | .var v =>
    (if opcode = .kindOf then errorOf (m.frames.slot v) else errorOf (m.frames.read v)).map .frame
  | .literal l => if l.value?.isNone then some (.invalidLiteral l) else none
  | .kind _ => (errorOf m.input.readLine.2).map .io
  | .label _ => none

end Machine

/-- The points at which an instruction that delivers a value can fail. -/
inductive Stage where
  | operand (index : Nat)
  | kind (index : Nat)
  | evaluation
  | frame
  | declaration
deriving DecidableEq

namespace Stage

def early : List Stage := [operand 1, kind 1, operand 2, kind 2, evaluation]

def late : List Stage := [frame, declaration]

variable {Out Diag : Type}

/-- The fault that there is at a stage, whatever there is at other stages. -/
def fault? (m : Machine Out Diag) (i : Instruction) : Stage → Option Fault
  | operand index => i.arguments[index]?.bind (m.unreadable? i.opcode)
  | kind index =>
    (i.arguments[index]?.bind m.frames.value?).bind fun x =>
      if x.kind ∈ i.opcode.accepted index then none
      else some (.badOperand i.opcode x (i.opcode.accepted index))
  | evaluation =>
    (i.opcode.error? (i.arguments.tail.filterMap m.frames.value?)).map (.operator i.opcode)
  | frame =>
    (i.variableAt 0).toOption.bind fun v =>
      if (m.frames.frame? v.scope).isNone then some (.frame (.missingFrame v.scope)) else none
  | declaration =>
    (i.variableAt 0).toOption.bind fun v => (m.frames.frame? v.scope).bind fun f =>
      if (f.find? v.name).isNone then some (.frame (.undefined v)) else none

def first? (stages : List Stage) (m : Machine Out Diag) (i : Instruction) : Option Fault :=
  stages.findSome? (·.fault? m i)

section
variable {stage : Stage} {stages later : List Stage} {m : Machine Out Diag} {i : Instruction}

theorem first?_nil : first? [] m i = none := rfl

theorem first?_cons : first? (stage :: later) m i = (stage.fault? m i).or (first? later m i) := by
  rw [first?, List.findSome?_cons]
  cases stage.fault? m i <;> rfl

theorem first?_append :
    first? (stages ++ later) m i = (first? stages m i).or (first? later m i) :=
  List.findSome?_append

end

end Stage

namespace Frames

variable {fs : Frames} {a : Argument} {x : Value}

theorem value?_eq_some : fs.value? a = some x ↔ fs.Denotes a x := by
  cases a with
  | var v => cases read : fs.read v <;> simp [value?, Denotes, read, Except.toOption]
  | literal l => exact Iff.rfl
  | label name => simp [value?, Denotes]
  | kind k => simp [value?, Denotes]

end Frames

namespace Machine

variable {Out Diag α β : Type} {m now : Machine Out Diag} {i : Instruction}
  {stages later : List Stage} {x : Action Out Diag α} {f : α → Action Out Diag β}
  {Q : α → Machine Out Diag → Prop} {R : β → Machine Out Diag → Prop}

/-- The action fails with the first fault of the stages. It succeeds if there is none. -/
def Follows (i : Instruction) (m : Machine Out Diag) (stages : List Stage)
    (x : Action Out Diag α) (now : Machine Out Diag) (Q : α → Machine Out Diag → Prop) : Prop :=
  Ensures x now (fun a after => Stage.first? stages m i = none ∧ Q a after)
    (fun fault _ => Stage.first? stages m i = some fault)

theorem Follows.bind (later : List Stage) (first : Follows i m stages x now Q)
    (next : ∀ a after, Q a after → Follows i m later (f a) after R) :
    Follows i m (stages ++ later) (x >>= f) now R := by
  refine ensures_bind.2 (first.mono ?_ ?_)
  · intro a after earlier
    refine (next a after earlier.2).mono ?_ ?_
    · intro b done last
      exact ⟨by rw [Stage.first?_append, earlier.1, last.1, Option.or_none], last.2⟩
    · intro fault _ found
      rw [Stage.first?_append, earlier.1, Option.none_or, found]
  · intro fault _ found
    rw [Stage.first?_append, found, Option.some_or]

theorem follows_pure {a : α} (holds : Q a now) : Follows i m [] (pure a) now Q :=
  ⟨rfl, holds⟩

theorem Follows.skip (clear : Stage.first? stages m i = none)
    (follows : Follows i m later x now Q) : Follows i m (stages ++ later) x now Q := by
  unfold Follows
  rw [Stage.first?_append, clear, Option.none_or]
  exact follows

theorem Follows.proceed {x : Action Out Diag Unit}
    (follows : Follows i m stages x now fun _ _ => True) :
    Follows i m stages (proceed x) now fun halt _ => halt = none := by
  refine ensures_proceed.2 (follows.mono ?_ fun _ _ => id)
  intro _ _ ended
  exact ⟨ended.1, rfl⟩

theorem follows_view {f : Frames → Except Fault α}
    (same : Stage.first? stages m i = errorOf (f m.frames))
    (holds : ∀ a, f m.frames = .ok a → Q a m) : Follows i m stages (view f) m Q := by
  refine ensures_view.2 ⟨fun a ok => ?_, fun fault error => ?_⟩
  · exact ⟨by rw [same, ok, errorOf], holds a ok⟩
  · rw [same, error, errorOf]

section
variable {a : Argument} {index : Nat} {kinds : List Kind} {v : Variable} {z : Value} {fault : Fault}

theorem unreadable?_of_denotes (denotes : m.frames.Denotes a z) (value : i.opcode ≠ .kindOf) :
    m.unreadable? i.opcode a = none := by
  cases a with
  | var v =>
    have read : m.frames.read v = .ok z := denotes
    simp [unreadable?, value, read, errorOf]
  | literal l =>
    have denotes : l.value? = some z := denotes
    simp [unreadable?, denotes]
  | label name => exact denotes.elim
  | kind k => exact denotes.elim

theorem unreadable?_of_symbolFault (found : i.arguments[index]? = some a)
    (symbol : a.fits .symbol = true) (value : i.opcode ≠ .kindOf)
    (failed : m.frames.SymbolFault i index fault) : m.unreadable? i.opcode a = some fault := by
  cases failed with
  | misfit misfit =>
    rw [misfit.unfit found] at symbol
    cases symbol
  | literal here invalid =>
    obtain rfl := Option.some.inj (found.symm.trans here)
    simp [unreadable?, invalid]
  | frame here unread =>
    obtain rfl := Option.some.inj (found.symm.trans here)
    simp [unreadable?, value, unread, errorOf]

theorem fault?_operand (found : i.arguments[index]? = some a) (symbol : a.fits .symbol = true)
    (value : i.opcode ≠ .kindOf) :
    (Stage.operand index).fault? m i = errorOf (m.frames.symbol i index) := by
  rw [Stage.fault?, found, Option.bind_some]
  cases result : m.frames.symbol i index with
  | ok z =>
    obtain ⟨b, here, denotes⟩ := Frames.symbol_eq_ok.1 result
    obtain rfl := Option.some.inj (found.symm.trans here)
    exact unreadable?_of_denotes denotes value
  | error fault =>
    exact unreadable?_of_symbolFault found symbol value (Frames.symbol_error result)

theorem fault?_kind (found : i.arguments[index]? = some a)
    (holds : m.frames.value? a = some z) :
    (Stage.kind index).fault? m i =
      if z.kind ∈ i.opcode.accepted index then none
      else some (.badOperand i.opcode z (i.opcode.accepted index)) := by
  rw [Stage.fault?, found, Option.bind_some, holds, Option.bind_some]

theorem first?_operand (found : i.arguments[index]? = some a) (symbol : a.fits .symbol = true)
    (value : i.opcode ≠ .kindOf) :
    Stage.first? [.operand index, .kind index] m i =
      errorOf (m.frames.operand i index (i.opcode.accepted index)) := by
  rw [Stage.first?_cons, Stage.first?_cons, Stage.first?_nil, Option.or_none,
    fault?_operand found symbol value]
  cases result : m.frames.symbol i index with
  | ok z =>
    obtain ⟨b, here, denotes⟩ := Frames.symbol_eq_ok.1 result
    obtain rfl := Option.some.inj (found.symm.trans here)
    rw [fault?_kind found (Frames.value?_eq_some.2 denotes)]
    by_cases fit : z.kind ∈ i.opcode.accepted index
    · rw [if_pos fit, Frames.operand_eq_ok.2 ⟨result, fit⟩]
      rfl
    · rw [if_neg fit, Frames.operand_eq_error.2 (.inr ⟨z, result, fit, rfl⟩)]
      rfl
  | error fault =>
    rw [Frames.operand_eq_error.2 (.inl result)]
    rfl

theorem follows_operand (found : i.arguments[index]? = some a) (symbol : a.fits .symbol = true)
    (value : i.opcode ≠ .kindOf) (kinds : List Kind) (accepted : i.opcode.accepted index = kinds) :
    Follows i m [.operand index, .kind index] (view (·.operand i index kinds)) m
      fun z after => after = m ∧ m.frames.value? a = some z ∧ z.kind ∈ kinds := by
  subst accepted
  refine follows_view (first?_operand found symbol value) fun z ok => ⟨rfl, ?_⟩
  obtain ⟨here, fit⟩ := Frames.operand_eq_ok.1 ok
  obtain ⟨b, there, denotes⟩ := Frames.symbol_eq_ok.1 here
  obtain rfl := Option.some.inj (found.symm.trans there)
  exact ⟨Frames.value?_eq_some.2 denotes, fit⟩

theorem follows_evaluation {result : Except Fault Value} (values : List Value)
    (operands : i.arguments.tail.filterMap m.frames.value? = values)
    (evaluates : errorOf result = (i.opcode.error? values).map (.operator i.opcode)) :
    Follows i m [.evaluation] (lift result) m fun _ after => after = m := by
  refine follows_view ?_ fun _ _ => rfl
  rw [evaluates, Stage.first?_cons, Stage.first?_nil, Option.or_none, Stage.fault?, operands]

theorem first?_late (destination : i.variableAt 0 = .ok v) (z : Value) :
    Stage.first? Stage.late m i = errorOf ((m.frames.write v z).mapError .frame) := by
  have target : (i.variableAt 0).toOption = some v := by
    rw [destination]
    rfl
  simp only [Stage.late, Stage.first?_cons, Stage.first?_nil, Option.or_none, Stage.fault?, target,
    Option.bind_some, Frames.write, Frames.frame]
  cases m.frames.frame? v.scope with
  | none => rfl
  | some f =>
    cases declared : f.find? v.name <;>
      simp [declared, bind, Except.bind, Except.mapError, errorOf]

theorem follows_assign (destination : i.variableAt 0 = .ok v) (same : now.frames = m.frames) :
    Follows i m Stage.late (assign v z) now fun _ _ => True := by
  have late := first?_late (m := m) destination z
  rw [← same] at late
  refine ensures_assign.2 ⟨fun frames written => ?_, fun e failed => ?_⟩
  · rw [written] at late
    exact ⟨late, trivial⟩
  · rw [failed] at late
    exact late

theorem follows_store (destination : i.variableAt 0 = .ok v) :
    Follows i m Stage.late (store i .arguments z) m fun _ _ => True := by
  have stored : (store i .arguments z : Action Out Diag Unit) = assign v z := by
    rw [store, destination]
    rfl
  exact stored ▸ follows_assign destination rfl

end

/-! ## Instructions -/

section
variable {a : Argument} {v : Variable} {operands : List Argument} {left right : List Kind}

theorem exists_destination (delivers : i.opcode.delivers = true)
    (shaped : List.Forall₂ (fun a shape => a.fits shape = true) i.arguments i.opcode.signature) :
    ∃ v operands, i.arguments = .var v :: operands ∧
      List.Forall₂ (fun a shape => a.fits shape = true) operands i.opcode.signature.tail := by
  have signature : i.opcode.signature = .var :: i.opcode.signature.tail := by
    revert delivers
    cases i.opcode with
    | binary form op | unary form op => cases form <;> simp [Opcode.delivers, Opcode.signature]
    | _ => simp [Opcode.delivers, Opcode.signature]
  rw [signature] at shaped
  obtain ⟨a, operands, first, others, arguments⟩ := List.forall₂_cons_right_iff.1 shaped
  cases a with
  | var v => exact ⟨v, operands, arguments, others⟩
  | _ => cases first

theorem variableAt_destination (arguments : i.arguments = .var v :: operands) :
    i.variableAt 0 = .ok v :=
  Instruction.variableAt_eq_ok.2 (by rw [arguments]; rfl)

theorem exists_operands {arguments : List Argument}
    (shaped : List.Forall₂ (fun a shape => a.fits shape = true) arguments [.symbol, .symbol]) :
    ∃ a b, arguments = [a, b] ∧ a.fits .symbol = true ∧ b.fits .symbol = true := by
  obtain ⟨a, rest, first, others, rfl⟩ := List.forall₂_cons_right_iff.1 shaped
  obtain ⟨b, rest, second, none, rfl⟩ := List.forall₂_cons_right_iff.1 others
  obtain rfl := List.forall₂_nil_right_iff.1 none
  exact ⟨a, b, rfl, first, second⟩

theorem exists_operand {arguments : List Argument} {shape : Shape}
    (shaped : List.Forall₂ (fun a shape => a.fits shape = true) arguments [shape]) :
    ∃ a, arguments = [a] ∧ a.fits shape = true := by
  obtain ⟨a, rest, first, none, rfl⟩ := List.forall₂_cons_right_iff.1 shaped
  obtain rfl := List.forall₂_nil_right_iff.1 none
  exact ⟨a, rfl, first⟩

theorem exists_kind (shaped : List.Forall₂ (fun a shape => a.fits shape = true) operands [.kind]) :
    ∃ k, operands = [.kind k] := by
  obtain ⟨a, rfl, kind⟩ := exists_operand shaped
  cases a with
  | kind k => exact ⟨k, rfl⟩
  | _ => cases kind

theorem follows_binary {f : Value → Value → Except Fault Value}
    (arguments : i.arguments = .var v :: operands)
    (shaped : List.Forall₂ (fun a shape => a.fits shape = true) operands [.symbol, .symbol])
    (value : i.opcode ≠ .kindOf) (leftKinds : i.opcode.accepted 1 = left)
    (rightKinds : i.opcode.accepted 2 = right)
    (evaluates : ∀ y z, y.kind ∈ left → z.kind ∈ right →
      errorOf (f y z) = (i.opcode.error? [y, z]).map (.operator i.opcode)) :
    Follows i m (Stage.early ++ Stage.late) (binary i .arguments left right f) m
      fun _ _ => True := by
  obtain ⟨a, b, rfl, first, second⟩ := exists_operands shaped
  have destination := variableAt_destination arguments
  have both : Follows i m [.operand 1, .kind 1, .operand 2, .kind 2]
      (twoOperands i .arguments left right) m fun pair after =>
        after = m ∧ i.arguments.tail.filterMap m.frames.value? = [pair.1, pair.2] ∧
          pair.1.kind ∈ left ∧ pair.2.kind ∈ right := by
    refine (follows_operand (by rw [arguments]; rfl) first value left leftKinds).bind
      [.operand 2, .kind 2] ?_
    intro y after ⟨same, here, fit⟩
    subst same
    refine (follows_operand (by rw [arguments]; rfl) second value right rightKinds).bind
      [] ?_
    intro z after ⟨same, there, fit'⟩
    subst same
    exact follows_pure ⟨rfl, by simp [arguments, here, there], fit, fit'⟩
  refine both.bind (.evaluation :: Stage.late) ?_
  intro pair after ⟨same, values, fit, fit'⟩
  subst same
  refine (follows_evaluation _ values (evaluates _ _ fit fit')).bind _ ?_
  intro z after same
  subst same
  exact follows_store destination

theorem follows_unary {f : Value → Except Fault Value}
    (arguments : i.arguments = .var v :: operands)
    (shaped : List.Forall₂ (fun a shape => a.fits shape = true) operands [.symbol])
    (value : i.opcode ≠ .kindOf) (kinds : i.opcode.accepted 1 = left)
    (evaluates : ∀ z, z.kind ∈ left →
      errorOf (f z) = (i.opcode.error? [z]).map (.operator i.opcode)) :
    Follows i m (Stage.early ++ Stage.late) (unary i .arguments left f) m fun _ _ => True := by
  obtain ⟨a, rfl, symbol⟩ := exists_operand shaped
  have destination := variableAt_destination arguments
  have second : Stage.first? [.operand 2, .kind 2] m i = none := by
    simp [Stage.first?_cons, Stage.first?_nil, Stage.fault?, arguments]
  refine (follows_operand (by rw [arguments]; rfl) symbol value left kinds).bind
    (.operand 2 :: .kind 2 :: .evaluation :: Stage.late) ?_
  intro z after ⟨same, here, fit⟩
  subst same
  refine .skip second ((follows_evaluation [z] ?_ (evaluates z fit)).bind _ ?_)
  · simp [arguments, here]
  · intro y after same
    subst same
    exact follows_store destination

theorem follows_source {source : Action Out Diag Value} (destination : i.variableAt 0 = .ok v)
    (kinds : i.opcode.accepted 1 = Kind.all) (single : i.arguments[2]? = none)
    (total : ∀ values, i.opcode.error? values = none)
    (first : Follows i m [.operand 1] source m fun _ after => after.frames = m.frames) :
    Follows i m (Stage.early ++ Stage.late) (source >>= assign v) m fun _ _ => True := by
  have clear : Stage.first? [.kind 1, .operand 2, .kind 2, .evaluation] m i = none := by
    simp [Stage.first?_cons, Stage.first?_nil, Stage.fault?, kinds, single, total, Kind.mem_all]
  refine first.bind (.kind 1 :: .operand 2 :: .kind 2 :: .evaluation :: Stage.late) ?_
  intro z after same
  exact .skip clear (follows_assign destination same)

theorem follows_move (arguments : i.arguments = .var v :: operands)
    (shaped : List.Forall₂ (fun a shape => a.fits shape = true) operands [.symbol])
    (opcode : i.opcode = .move) :
    Follows i m (Stage.early ++ Stage.late) (move i) m fun _ _ => True := by
  obtain ⟨a, rfl, symbol⟩ := exists_operand shaped
  have destination := variableAt_destination arguments
  have value : i.opcode ≠ .kindOf := by simp [opcode]
  have source : (move i : Action Out Diag Unit) = view (·.symbol i 1) >>= assign v := by
    rw [move, destination]
    rfl
  rw [source]
  refine follows_source destination (by rw [opcode]; rfl) (by rw [arguments]; rfl)
    (fun values => by rw [opcode]; rfl) (follows_view ?_ fun _ _ => rfl)
  rw [Stage.first?_cons, Stage.first?_nil, Option.or_none,
    fault?_operand (by rw [arguments]; rfl) symbol value]

theorem unreadable?_kindOf (found : i.arguments[1]? = some a) (symbol : a.fits .symbol = true)
    (opcode : i.opcode = .kindOf) :
    m.unreadable? i.opcode a = errorOf (m.frames.kindName i 1) := by
  cases a with
  | var w =>
    simp only [unreadable?, opcode, if_true, Frames.kindName, Instruction.argumentAt, found]
    cases slot : m.frames.slot w with
    | ok held =>
      cases held <;> simp [slot, bind, Except.bind, Except.mapError, errorOf, pure, Except.pure]
    | error e => simp [slot, bind, Except.bind, Except.mapError, errorOf]
  | literal l =>
    simp only [unreadable?, Frames.kindName, Frames.symbol, Instruction.argumentAt, found, convert]
    cases denoted : l.value? <;> simp [denoted, bind, Except.bind, errorOf, pure, Except.pure]
  | label name => cases symbol
  | kind k => cases symbol

theorem follows_kindOf (arguments : i.arguments = .var v :: operands)
    (shaped : List.Forall₂ (fun a shape => a.fits shape = true) operands [.symbol])
    (opcode : i.opcode = .kindOf) :
    Follows i m (Stage.early ++ Stage.late) (kindOf i) m fun _ _ => True := by
  obtain ⟨a, rfl, symbol⟩ := exists_operand shaped
  have destination := variableAt_destination arguments
  have found : i.arguments[1]? = some a := by
    rw [arguments]
    rfl
  have named : Follows i m [.operand 1] (view (·.kindName i 1)) m
      fun _ after => after.frames = m.frames := by
    refine follows_view ?_ fun _ _ => rfl
    rw [Stage.first?_cons, Stage.first?_nil, Option.or_none, Stage.fault?, found, Option.bind_some,
      unreadable?_kindOf found symbol opcode]
  have source : (kindOf i : Action Out Diag Unit) =
      (do
        let name ← view (·.kindName i 1)
        return .string name) >>= assign v := by
    rw [kindOf, destination, bind_assoc]
    rfl
  rw [source]
  refine follows_source destination (by rw [opcode]; rfl) (by rw [arguments]; rfl)
    (fun values => by rw [opcode]; rfl) (named.bind [] fun name after same => ?_)
  exact follows_pure same

theorem follows_read (arguments : i.arguments = .var v :: operands)
    (shaped : List.Forall₂ (fun a shape => a.fits shape = true) operands [.kind])
    (opcode : i.opcode = .read) :
    Follows i m (Stage.early ++ Stage.late) (read i) m fun _ _ => True := by
  obtain ⟨k, rfl⟩ := exists_kind shaped
  have destination := variableAt_destination arguments
  have kind : i.kindAt 1 = .ok k := Instruction.kindAt_eq_ok.2 (by rw [arguments]; rfl)
  have line : Follows i m [.operand 1] readLine m fun _ after => after.frames = m.frames := by
    have first : Stage.first? [.operand 1] m i = (errorOf m.input.readLine.2).map .io := by
      rw [Stage.first?_cons, Stage.first?_nil, Option.or_none, Stage.fault?, arguments]
      rfl
    refine ensures_readLine.2 ⟨fun rest line taken => ?_, fun rest text failed => ?_⟩
    · rw [first, taken]
      exact ⟨rfl, rfl⟩
    · rw [first, failed]
      rfl
  have source : (read i : Action Out Diag Unit) =
      (do
        let line ← readLine
        return .ofInput k line) >>= assign v := by
    rw [read, destination, kind, bind_assoc]
    rfl
  rw [source]
  refine follows_source destination (by rw [opcode]; rfl) (by rw [arguments]; rfl)
    (fun values => by rw [opcode]; rfl) (line.bind [] fun name after same => ?_)
  exact follows_pure same

end

/-! ## All instructions that deliver -/

section
variable {y z : Value} {op : BinaryOp} {form : Form}

theorem errorOf_asFault {result : Except OperatorError α} {opcode : Opcode} :
    errorOf (asFault opcode result) = (errorOf result).map (.operator opcode) := by
  cases result <;> rfl

theorem errorOf_map {ε : Type} {result : Except ε α} {g : α → β} :
    errorOf (result.map g) = errorOf result := by
  cases result <;> rfl

theorem errorOf_binary (left : y.kind ∈ op.leftKinds) (right : z.kind ∈ op.rightKinds) :
    errorOf (op.apply (.binary form op) y z) =
      ((Opcode.binary form op).error? [y, z]).map (.operator (.binary form op)) := by
  cases op with
  | arithmetic op => exact errorOf_asFault
  | comparison op => exact errorOf_map.trans errorOf_asFault
  | logic op => exact errorOf_map.trans errorOf_asFault
  | charCode =>
    cases y with
    | string s =>
      cases z with
      | int index => exact errorOf_map.trans errorOf_asFault
      | _ => exact absurd right (by simp [BinaryOp.rightKinds, Value.kind])
    | _ => exact absurd left (by simp [BinaryOp.leftKinds, Value.kind])

theorem errorOf_unary {op : UnaryOp} (kind : z.kind ∈ op.kinds) :
    errorOf (op.apply (.unary form op) z) =
      ((Opcode.unary form op).error? [z]).map (.operator (.unary form op)) := by
  cases op with
  | not => rfl
  | intToChar =>
    cases z with
    | int code => exact errorOf_map.trans errorOf_asFault
    | _ => exact absurd kind (by simp [UnaryOp.kinds, Value.kind])
  | intToFloat =>
    cases z with
    | int n => rfl
    | _ => exact absurd kind (by simp [UnaryOp.kinds, Value.kind])
  | floatToInt =>
    cases z with
    | float x => exact errorOf_map.trans errorOf_asFault
    | _ => exact absurd kind (by simp [UnaryOp.kinds, Value.kind])

theorem errorOf_concat (left : y.kind ∈ [Kind.string]) (right : z.kind ∈ [Kind.string]) :
    errorOf (concat .concat y z) = none := by
  cases y with
  | string s =>
    cases z with
    | string t => rfl
    | _ => exact absurd right (by simp [Value.kind])
  | _ => exact absurd left (by simp [Value.kind])

theorem errorOf_length (kind : z.kind ∈ [Kind.string]) : errorOf (length .length z) = none := by
  cases z with
  | string s => rfl
  | _ => exact absurd kind (by simp [Value.kind])

theorem errorOf_getChar (left : y.kind ∈ [Kind.string]) (right : z.kind ∈ [Kind.int]) :
    errorOf (getChar .getChar y z) =
      (Opcode.getChar.error? [y, z]).map (.operator .getChar) := by
  cases y with
  | string s =>
    cases z with
    | int index => exact errorOf_map.trans errorOf_asFault
    | _ => exact absurd right (by simp [Value.kind])
  | _ => exact absurd left (by simp [Value.kind])

end

variable [Sink Out] [Sink Diag]

theorem step_follows (delivers : i.opcode.delivers = true)
    (shaped : List.Forall₂ (fun a shape => a.fits shape = true) i.arguments i.opcode.signature) :
    Follows i m (Stage.early ++ Stage.late) (step i) m fun halt _ => halt = none := by
  obtain ⟨v, operands, given, others⟩ := exists_destination delivers shaped
  obtain ⟨opcode, order, arguments⟩ := i
  cases opcode with
  | move => exact (follows_move given others rfl).proceed
  | kindOf => exact (follows_kindOf given others rfl).proceed
  | read => exact (follows_read given others rfl).proceed
  | binary form op =>
    cases form with
    | arguments =>
      exact (follows_binary given others (by simp) rfl rfl fun _ _ => errorOf_binary).proceed
    | stack => cases delivers
  | unary form op =>
    cases form with
    | arguments => exact (follows_unary given others (by simp) rfl fun _ => errorOf_unary).proceed
    | stack => cases delivers
  | concat =>
    exact (follows_binary given others (by simp) rfl rfl fun _ _ => errorOf_concat).proceed
  | length => exact (follows_unary given others (by simp) rfl fun _ => errorOf_length).proceed
  | getChar =>
    exact (follows_binary given others (by simp) rfl rfl fun _ _ => errorOf_getChar).proceed
  | _ => cases delivers

theorem step_fails_iff {fault : Fault} (delivers : i.opcode.delivers = true)
    (shaped : List.Forall₂ (fun a shape => a.fits shape = true) i.arguments i.opcode.signature) :
    (∃ after, (step i).run m = .error fault after) ↔
      Stage.first? (Stage.early ++ Stage.late) m i = some fault := by
  have follows : Follows i m _ (step i) m _ := step_follows delivers shaped
  cases result : (step i).run m with
  | ok halt after => simp [(follows.of_ok result).1]
  | error other after => simp [follows.of_error result]

theorem step_succeeds_iff (delivers : i.opcode.delivers = true)
    (shaped : List.Forall₂ (fun a shape => a.fits shape = true) i.arguments i.opcode.signature) :
    (∃ after, (step i).run m = .ok none after) ↔
      Stage.first? (Stage.early ++ Stage.late) m i = none := by
  have follows : Follows i m _ (step i) m _ := step_follows delivers shaped
  cases result : (step i).run m with
  | ok halt after =>
    obtain ⟨clear, rfl⟩ := follows.of_ok result
    simp [clear]
  | error fault after => simp [follows.of_error result]

omit [Sink Out] [Sink Diag] in
theorem first?_early_destination {v w : Variable} {operands : List Argument}
    (arguments : i.arguments = .var v :: operands) :
    Stage.first? Stage.early m { i with arguments := .var w :: operands } =
      Stage.first? Stage.early m i := by
  simp [Stage.early, Stage.first?_cons, Stage.first?_nil, Stage.fault?, arguments]

/-- An instruction that delivers a value fails with the fault of the first stage that has one, and
succeeds if no stage has one. The destination comes last: another destination does not change a
fault of the stages before it. -/
theorem delivery_in_order (i : Instruction) (m : Machine Out Diag)
    (delivers : i.opcode.delivers = true)
    (shaped : List.Forall₂ (fun a shape => a.fits shape = true) i.arguments i.opcode.signature) :
    (∀ fault, (∃ after, (step i).run m = .error fault after) ↔
      Stage.first? (Stage.early ++ Stage.late) m i = some fault) ∧
    ((∃ after, (step i).run m = .ok none after) ↔
      ∀ stage ∈ Stage.early ++ Stage.late, stage.fault? m i = none) ∧
    ∀ fault, Stage.first? Stage.early m i = some fault → ∀ w, ∃ after,
      (step { i with arguments := .var w :: i.arguments.tail }).run m = .error fault after := by
  refine ⟨fun fault => step_fails_iff delivers shaped, ?_, fun fault early w => ?_⟩
  · exact (step_succeeds_iff delivers shaped).trans List.findSome?_eq_none_iff
  · obtain ⟨v, operands, arguments, -⟩ := exists_destination delivers shaped
    rw [arguments] at shaped
    have moved : List.Forall₂ (fun a shape => a.fits shape = true) (.var w :: operands)
        i.opcode.signature := by
      obtain ⟨shape, shapes, first, others, signature⟩ := List.forall₂_cons_left_iff.1 shaped
      rw [signature]
      have fit : (Argument.var w).fits shape = true := by
        revert first
        cases shape <;> exact id
      exact .cons fit others
    rw [arguments, List.tail_cons]
    refine (step_fails_iff (i := { i with arguments := .var w :: operands }) delivers moved).2 ?_
    rw [Stage.first?_append, first?_early_destination arguments, early, Option.some_or]

/-- A division by zero is reported although the frame of the destination is missing. -/
theorem delivery_in_order_division :
    ∃ (i : Instruction) (m : Machine Buffer Buffer),
      i = ⟨.binary .arguments (.arithmetic .idiv), 1,
        [.var ⟨.innermost, "x"⟩, .literal ⟨.int, "1"⟩, .literal ⟨.int, "0"⟩]⟩ ∧
      Stage.frame.fault? m i = some (.frame (.missingFrame .innermost)) ∧
      (∃ after, (step i).run m = .error (.operator i.opcode .divisionByZero) after) ∧
      ∃ after, (step { i with arguments := .var ⟨.global, "y"⟩ :: i.arguments.tail }).run m =
        .error (.operator i.opcode .divisionByZero) after := by
  let i : Instruction := ⟨.binary .arguments (.arithmetic .idiv), 1,
    [.var ⟨.innermost, "x"⟩, .literal ⟨.int, "1"⟩, .literal ⟨.int, "0"⟩]⟩
  let m : Machine Buffer Buffer := initial ⟨[], none⟩ Buffer.unbounded Buffer.unbounded false
  have shaped : List.Forall₂ (fun a shape => a.fits shape = true) i.arguments i.opcode.signature :=
    .cons rfl (.cons rfl (.cons rfl .nil))
  have early : Stage.first? Stage.early m i = some (.operator i.opcode .divisionByZero) := rfl
  obtain ⟨fails, -, moved⟩ := delivery_in_order i m rfl shaped
  have first : Stage.first? (Stage.early ++ Stage.late) m i =
      some (.operator i.opcode .divisionByZero) := by
    rw [Stage.first?_append, early, Option.some_or]
  exact ⟨i, m, rfl, rfl, (fails _).2 first, moved _ early ⟨.global, "y"⟩⟩

end Machine

end IppCode
