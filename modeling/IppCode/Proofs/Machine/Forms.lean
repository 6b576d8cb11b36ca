import IppCode.Proofs.Machine.Execution
import IppCode.Proofs.Machine.Operator

/-!
# The two forms of an operator

An operator with arguments does what its stack form does between instructions that push its operands
and one that pops its result: the same frames are left, or the same fault is reported. The same
holds of conditional branches (`forms_agree`).
-/

namespace IppCode

def Program.Holds (p : Program) : Nat → List (Opcode × List Argument) → Prop
  | _, [] => True
  | position, (opcode, arguments) :: rest =>
    (∃ order, p.instructions[position]? = some ⟨opcode, order, arguments⟩) ∧
      p.Holds (position + 1) rest

namespace Machine

variable {Out Diag : Type} {m : Machine Out Diag} {p q : Program}

/-- What a program works on, with these frames, this stack and this pointer, and all else as it
was. -/
structure Resumes (m : Machine Out Diag) (frames : Frames) (stack : List Value) (next : Nat)
    (after : Machine Out Diag) : Prop where
  frames : after.frames = frames
  stack : after.stack = stack
  next : after.next = next
  calls : after.calls = m.calls
  labels : after.labels = m.labels
  input : after.input = m.input
  output : after.output = m.output
  diagnostics : after.diagnostics = m.diagnostics

theorem Resumes.refl (m : Machine Out Diag) : Resumes m m.frames m.stack m.next m :=
  ⟨rfl, rfl, rfl, rfl, rfl, rfl, rfl, rfl⟩

theorem Resumes.at (m : Machine Out Diag) (n : Nat) :
    Resumes m m.frames m.stack n { m with next := n } :=
  ⟨rfl, rfl, rfl, rfl, rfl, rfl, rfl, rfl⟩

theorem Resumes.later {now : Machine Out Diag} {fs frames : Frames} {stack values : List Value}
    {n next : Nat} {i : Instruction} (here : Resumes m fs stack n now) :
    Resumes m frames values next
      (account { now.dispatched with frames, stack := values, next } i) :=
  { here with frames := rfl, stack := rfl, next := rfl }

/-- A run goes on with a result, or it fails. -/
def Ends {α : Type} (result : Except Fault α) (done : α → Machine Out Diag → Prop) :
    Machine Out Diag × Option (Except RuntimeError Halt) → Prop
  | (after, none) => ∃ a, result = .ok a ∧ done a after
  | (_, some (.error e)) => result = .error e.fault
  | (_, some (.ok _)) => False

theorem Ends.of_ok {α : Type} {a : α} {done : α → Machine Out Diag → Prop}
    {run : Machine Out Diag × Option (Except RuntimeError Halt)} (ends : Ends (.ok a) done run) :
    ∃ after, run = (after, none) ∧ done a after := by
  rcases run with ⟨after, _ | e | halt⟩
  · obtain ⟨b, same, done⟩ := ends
    exact ⟨after, rfl, Except.ok.inj same ▸ done⟩
  · cases ends
  · cases ends

theorem Ends.of_error {α : Type} {fault : Fault} {done : α → Machine Out Diag → Prop}
    {run : Machine Out Diag × Option (Except RuntimeError Halt)}
    (ends : Ends (.error fault) done run) :
    ∃ after e, run = (after, some (.error e)) ∧ e.fault = fault := by
  rcases run with ⟨after, _ | e | halt⟩
  · obtain ⟨_, same, _⟩ := ends
    cases same
  · exact ⟨after, e, rfl, (Except.error.inj ends).symm⟩
  · cases ends

inductive Agree {α : Type} (done done' : α → Machine Out Diag → Prop) :
    Machine Out Diag × Option (Except RuntimeError Halt) →
      Machine Out Diag × Option (Except RuntimeError Halt) → Prop
  | goOn {a : α} {after after' : Machine Out Diag} :
      done a after → done' a after' → Agree done done' (after, none) (after', none)
  | fail {e e' : RuntimeError} {after after' : Machine Out Diag} :
      e.fault.Alike e'.fault →
        Agree done done' (after, some (.error e)) (after', some (.error e'))

theorem Agree.of_ends {α : Type} {compute : Opcode → Except Fault α} (opcode other : Opcode)
    {done done' : α → Machine Out Diag → Prop}
    {run run' : Machine Out Diag × Option (Except RuntimeError Halt)}
    (uniform : Uniform compute) (ends : Ends (compute opcode) done run)
    (ends' : Ends (compute other) done' run') : Agree done done' run run' := by
  have same := uniform opcode other
  rw [← same] at ends'
  cases result : compute opcode with
  | ok a =>
    rw [result] at ends ends'
    obtain ⟨after, rfl, first⟩ := ends.of_ok
    obtain ⟨after', rfl, second⟩ := ends'.of_ok
    exact .goOn first second
  | error fault =>
    rw [result] at ends ends'
    obtain ⟨after, e, rfl, rfl⟩ := ends.of_error
    obtain ⟨after', e', rfl, alike⟩ := ends'.of_error
    exact .fail ⟨other, alike.symm⟩

variable [Sink Out] [Sink Diag]

theorem run_succ {limit : Nat} {i : Instruction}
    {P : Machine Out Diag × Option (Except RuntimeError Halt) → Prop}
    (found : p.instructions[m.next]? = some i)
    (first : Ensures (step i) m.dispatched
      (fun halt after => halt = none ∧ P (run p limit (after.account i)))
      (fun fault after => P (after, some (.error ⟨m.next + 1, fault⟩)))) :
    P (run p (limit + 1) m) := by
  rw [run]
  cases advanced : advance p m with
  | mk after result =>
    cases advances_of_advance advanced with
    | finished missing => simp [found] at missing
    | continued other ok =>
      obtain rfl := Option.some.inj (found.symm.trans other)
      exact (first.of_ok ok).2
    | exited other ok =>
      obtain rfl := Option.some.inj (found.symm.trans other)
      simpa using (first.of_ok ok).1
    | failed other error =>
      obtain rfl := Option.some.inj (found.symm.trans other)
      exact first.of_error error

section
variable {now : Machine Out Diag} {fs : Frames} {stack : List Value} {n limit : Nat}
  {order : UInt32} {a b : Argument} {v : Variable} {x y : Value}
  {P : Machine Out Diag × Option (Except RuntimeError Halt) → Prop}

theorem run_push (here : Resumes m fs stack n now)
    (found : p.instructions[n]? = some ⟨.push, order, [a]⟩) (denotes : fs.Denotes a x)
    (onward : ∀ later, Resumes m fs (x :: stack) (n + 1) later → P (run p limit later)) :
    P (run p (limit + 1) now) := by
  obtain ⟨rfl, rfl, rfl⟩ := And.intro here.frames (And.intro here.stack here.next)
  have symbol : now.frames.symbol ⟨.push, order, [a]⟩ 0 = .ok x :=
    Frames.symbol_eq_ok.2 ⟨a, rfl, denotes⟩
  refine run_succ found ?_
  simpa [step, pushSymbol, dispatched, symbol] using onward _ here.later

theorem run_pop (here : Resumes m fs (x :: stack) n now)
    (found : p.instructions[n]? = some ⟨.pop, order, [.var v]⟩)
    (done : ∀ frames later, fs.write v x = .ok frames → Resumes m frames stack (n + 1) later →
      P (run p limit later))
    (failed : ∀ e after, fs.write v x = .error e → P (after, some (.error ⟨n + 1, .frame e⟩))) :
    P (run p (limit + 1) now) := by
  obtain ⟨rfl, top, rfl⟩ := And.intro here.frames (And.intro here.stack here.next)
  have destination : Instruction.variableAt ⟨.pop, order, [.var v]⟩ 0 = .ok v := rfl
  refine run_succ found ?_
  cases written : now.frames.write v x with
  | ok frames =>
    simpa [step, pop, dispatched, destination, top, written] using done _ _ written here.later
  | error e =>
    simpa [step, pop, dispatched, destination, top, written] using failed _ _ written

theorem binary_arguments_ends {op : BinaryOp}
    (found : p.instructions[m.next]? = some ⟨.binary .arguments op, order, [.var v, a, b]⟩)
    (left : m.frames.Denotes a x) (right : m.frames.Denotes b y) :
    Ends (delivered m.frames v (op.result x y (.binary .arguments op)))
      (fun frames => Resumes m frames m.stack (m.next + 1)) (run p 1 m) := by
  refine run_succ found ?_
  rw [step, ensures_proceed, ensures_binary_arguments (m := m.dispatched) rfl left right,
    ensures_lift]
  exact ⟨fun frames ok => ⟨rfl, frames, ok, (Resumes.refl m).later⟩, fun fault error => error⟩

theorem unary_arguments_ends {op : UnaryOp}
    (found : p.instructions[m.next]? = some ⟨.unary .arguments op, order, [.var v, a]⟩)
    (denotes : m.frames.Denotes a x) :
    Ends (delivered m.frames v (op.result x (.unary .arguments op)))
      (fun frames => Resumes m frames m.stack (m.next + 1)) (run p 1 m) := by
  refine run_succ found ?_
  rw [step, ensures_proceed, ensures_unary_arguments (m := m.dispatched) rfl denotes, ensures_lift]
  exact ⟨fun frames ok => ⟨rfl, frames, ok, (Resumes.refl m).later⟩, fun fault error => error⟩

theorem stack_ends {i : Instruction} {operands : List Value} {result : Except Fault Value}
    (here : Resumes m fs operands n now) (found : p.instructions[n]? = some i)
    (popped : p.instructions[n + 1]? = some ⟨.pop, order, [.var v]⟩)
    (computes : ∀ (Q : Option Halt → Machine Out Diag → Prop) (E : Fault → Machine Out Diag → Prop),
      Ensures (step i) now.dispatched Q E ↔
        Ensures (lift result) { now.dispatched with stack }
          (fun z _ => Q none { now.dispatched with stack := z :: stack }) E) :
    Ends (delivered fs v result) (fun frames => Resumes m frames stack (n + 2)) (run p 2 now) := by
  obtain ⟨rfl, rfl⟩ := And.intro here.frames here.next
  refine run_succ found ((computes _ _).2 (ensures_lift.2 ⟨fun z ok => ⟨rfl, ?_⟩, ?_⟩))
  · have pushed : Resumes m now.frames (z :: stack) (now.next + 1)
        (account { now.dispatched with stack := z :: stack } i) := here.later
    rw [ok, delivered_ok]
    refine run_pop pushed popped (fun frames later written resumes => ?_) fun e after failed => ?_
    · exact ⟨frames, by rw [written]; rfl, resumes⟩
    · rw [failed]
      rfl
  · intro fault error
    rw [error]
    rfl

theorem binary_stack_ends {op : BinaryOp} {order' : UInt32}
    (here : Resumes m fs (y :: x :: stack) n now)
    (found : p.instructions[n]? = some ⟨.binary .stack op, order, []⟩)
    (popped : p.instructions[n + 1]? = some ⟨.pop, order', [.var v]⟩) :
    Ends (delivered fs v (op.result x y (.binary .stack op)))
      (fun frames => Resumes m frames stack (n + 2)) (run p 2 now) := by
  refine stack_ends here found popped fun Q E => ?_
  rw [step, ensures_proceed, ensures_binary_stack (m := now.dispatched) here.stack]

theorem unary_stack_ends {op : UnaryOp} {order' : UInt32}
    (here : Resumes m fs (x :: stack) n now)
    (found : p.instructions[n]? = some ⟨.unary .stack op, order, []⟩)
    (popped : p.instructions[n + 1]? = some ⟨.pop, order', [.var v]⟩) :
    Ends (delivered fs v (op.result x (.unary .stack op)))
      (fun frames => Resumes m frames stack (n + 2)) (run p 2 now) := by
  refine stack_ends here found popped fun Q E => ?_
  rw [step, ensures_proceed, ensures_unary_stack (m := now.dispatched) here.stack]

def Branches (m : Machine Out Diag) (name : String) (through : Nat) (taken : Bool)
    (after : Machine Out Diag) : Prop :=
  ∃ next, Resumes m m.frames m.stack next after ∧
    if taken then m.labels.find? name = some next else next = through

theorem jumpIf_ends {i : Instruction} {form : Form} {operands : List Value} {name : String}
    {position : Nat} {whenEqual : Bool} (here : Resumes m m.frames operands n now)
    (found : p.instructions[n]? = some i) (opcode : i.opcode = .jumpIf form whenEqual)
    (target : i.arguments[0]? = some (.label name))
    (declared : m.labels.find? name = some position)
    (fetched : ∀ (Q : Value × Value → Machine Out Diag → Prop) E,
      Ensures (twoOperands i form Kind.all Kind.all) now.dispatched Q E ↔
        Ensures (lift (accept i.opcode Kind.all Kind.all x y))
          { now.dispatched with stack := m.stack } Q E) :
    Ends (branches whenEqual x y i.opcode) (Branches m name (n + 1)) (run p 1 now) := by
  obtain rfl := here.next
  have known : now.dispatched.labels.find? name = some position := here.labels ▸ declared
  have dispatch : step i = proceed (jumpIf i form whenEqual : Action Out Diag Unit) := by
    rw [step, opcode]
  refine run_succ found ?_
  rw [dispatch, ensures_proceed, ensures_jumpIf target known (fetched · _), ensures_lift]
  refine ⟨fun taken ok => ⟨rfl, taken, ok, if taken then position else now.next + 1, ?_, ?_⟩,
    fun fault error => error⟩
  · exact { here with frames := here.frames, stack := rfl, next := rfl }
  · cases taken with
    | true => exact declared
    | false => rfl

theorem jumpIf_undeclared_ends {i : Instruction} {form : Form} {operands : List Value}
    {name : String} {whenEqual : Bool} (here : Resumes m m.frames operands n now)
    (found : p.instructions[n]? = some i) (opcode : i.opcode = .jumpIf form whenEqual)
    (target : i.arguments[0]? = some (.label name)) (undeclared : m.labels.find? name = none) :
    Ends (.error (.undefinedLabel name)) (Branches m name (n + 1)) (run p 1 now) := by
  obtain rfl := here.next
  have unknown : now.dispatched.labels.find? name = none := here.labels ▸ undeclared
  refine run_succ found ?_
  rw [step, opcode, ensures_proceed, jumpIf, ensures_bind,
    ensures_branchTarget_undeclared target unknown]
  rfl

end

section
variable {a b : Argument} {v : Variable} {x y : Value} {n : Nat} {name : String}

theorem unary_agrees {op : UnaryOp} (denotes : m.frames.Denotes a x)
    (single : p.Holds m.next [(.unary .arguments op, [.var v, a])])
    (sequence : q.Holds n [(.push, [a]), (.unary .stack op, []), (.pop, [.var v])]) :
    Agree (fun frames => Resumes m frames m.stack (m.next + 1))
      (fun frames => Resumes m frames m.stack (n + 3)) (run p 1 m)
      (run q 3 { m with next := n }) := by
  obtain ⟨⟨_, found⟩, -⟩ := single
  obtain ⟨⟨_, pushes⟩, ⟨_, applies⟩, ⟨_, pops⟩, -⟩ := sequence
  have direct := unary_arguments_ends found denotes
  have stacked : Ends (delivered m.frames v (op.result x (.unary .stack op)))
      (fun frames => Resumes m frames m.stack (n + 3)) (run q 3 { m with next := n }) := by
    refine run_push (.at m n) pushes denotes fun later here => ?_
    exact unary_stack_ends here applies pops
  exact .of_ends _ (.unary .stack op) (Uniform.delivered .unaryResult) direct stacked

theorem binary_agrees {op : BinaryOp} (left : m.frames.Denotes a x) (right : m.frames.Denotes b y)
    (single : p.Holds m.next [(.binary .arguments op, [.var v, a, b])])
    (sequence : q.Holds n
      [(.push, [a]), (.push, [b]), (.binary .stack op, []), (.pop, [.var v])]) :
    Agree (fun frames => Resumes m frames m.stack (m.next + 1))
      (fun frames => Resumes m frames m.stack (n + 4)) (run p 1 m)
      (run q 4 { m with next := n }) := by
  obtain ⟨⟨_, found⟩, -⟩ := single
  obtain ⟨⟨_, pushes⟩, ⟨_, pushes'⟩, ⟨_, applies⟩, ⟨_, pops⟩, -⟩ := sequence
  have direct := binary_arguments_ends found left right
  have stacked : Ends (delivered m.frames v (op.result x y (.binary .stack op)))
      (fun frames => Resumes m frames m.stack (n + 4)) (run q 4 { m with next := n }) := by
    refine run_push (.at m n) pushes left fun later here => ?_
    refine run_push here pushes' right fun later here => ?_
    exact binary_stack_ends here applies pops
  exact .of_ends _ (.binary .stack op) (Uniform.delivered .binaryResult) direct stacked

theorem jumpIf_agrees {whenEqual : Bool} (left : m.frames.Denotes a x)
    (right : m.frames.Denotes b y)
    (single : p.Holds m.next [(.jumpIf .arguments whenEqual, [.label name, a, b])])
    (sequence : q.Holds n
      [(.push, [a]), (.push, [b]), (.jumpIf .stack whenEqual, [.label name])]) :
    Agree (Branches m name (m.next + 1)) (Branches m name (n + 3)) (run p 1 m)
      (run q 3 { m with next := n }) := by
  obtain ⟨⟨_, found⟩, -⟩ := single
  obtain ⟨⟨_, pushes⟩, ⟨_, pushes'⟩, ⟨_, jumps⟩, -⟩ := sequence
  cases declared : m.labels.find? name with
  | none =>
    have uniform : Uniform fun _ => (.error (.undefinedLabel name) : Except Fault Bool) :=
      fun _ _ => rfl
    have direct := jumpIf_undeclared_ends (.refl m) found rfl rfl declared
    have stacked : Ends (.error (.undefinedLabel name)) (Branches m name (n + 3))
        (run q 3 { m with next := n }) := by
      refine run_push (.at m n) pushes left fun later here => ?_
      refine run_push here pushes' right fun later here => ?_
      exact jumpIf_undeclared_ends here jumps rfl rfl declared
    exact .of_ends (.jumpIf .arguments whenEqual) (.jumpIf .stack whenEqual) uniform direct stacked
  | some position =>
    have direct := jumpIf_ends (.refl m) found rfl rfl declared fun Q E =>
      ensures_twoOperands_arguments rfl rfl left right
    have stacked : Ends (branches whenEqual x y (.jumpIf .stack whenEqual))
        (Branches m name (n + 3)) (run q 3 { m with next := n }) := by
      refine run_push (.at m n) pushes left fun later here => ?_
      refine run_push here pushes' right fun later here => ?_
      exact jumpIf_ends here jumps rfl rfl declared fun Q E =>
        ensures_twoOperands_stack here.stack
    exact .of_ends _ (.jumpIf .stack whenEqual) .branches direct stacked

/-- Every operator and every conditional branch agrees with its stack form, wherever the result
goes and whatever the operands are. -/
theorem forms_agree (left : m.frames.Denotes a x) :
    (∀ op, p.Holds m.next [(.unary .arguments op, [.var v, a])] →
      q.Holds n [(.push, [a]), (.unary .stack op, []), (.pop, [.var v])] →
      Agree (fun frames => Resumes m frames m.stack (m.next + 1))
        (fun frames => Resumes m frames m.stack (n + 3)) (run p 1 m)
        (run q 3 { m with next := n })) ∧
    ∀ b y, m.frames.Denotes b y →
      (∀ op, p.Holds m.next [(.binary .arguments op, [.var v, a, b])] →
        q.Holds n [(.push, [a]), (.push, [b]), (.binary .stack op, []), (.pop, [.var v])] →
        Agree (fun frames => Resumes m frames m.stack (m.next + 1))
          (fun frames => Resumes m frames m.stack (n + 4)) (run p 1 m)
          (run q 4 { m with next := n })) ∧
      ∀ whenEqual name, p.Holds m.next [(.jumpIf .arguments whenEqual, [.label name, a, b])] →
        q.Holds n [(.push, [a]), (.push, [b]), (.jumpIf .stack whenEqual, [.label name])] →
        Agree (Branches m name (m.next + 1)) (Branches m name (n + 3)) (run p 1 m)
          (run q 3 { m with next := n }) :=
  ⟨fun _ => unary_agrees left, fun _ _ right =>
    ⟨fun _ => binary_agrees left right, fun _ _ => jumpIf_agrees left right⟩⟩

theorem forms_agree_and :
    ∃ (p q : Program) (m : Machine Buffer Buffer),
      p = ⟨#[⟨.binary .arguments (.logic .and), 1,
        [.var ⟨.global, "x"⟩, .literal ⟨.bool, "true"⟩, .literal ⟨.bool, "false"⟩]⟩]⟩ ∧
      q = ⟨#[⟨.push, 1, [.literal ⟨.bool, "true"⟩]⟩, ⟨.push, 2, [.literal ⟨.bool, "false"⟩]⟩,
        ⟨.binary .stack (.logic .and), 3, []⟩, ⟨.pop, 4, [.var ⟨.global, "x"⟩]⟩]⟩ ∧
      Agree (fun frames => Resumes m frames m.stack 1) (fun frames => Resumes m frames m.stack 4)
        (run p 1 m) (run q 4 m) := by
  let a : Argument := .literal ⟨.bool, "true"⟩
  let b : Argument := .literal ⟨.bool, "false"⟩
  let v : Variable := ⟨.global, "x"⟩
  let p : Program := ⟨#[⟨.binary .arguments (.logic .and), 1, [.var v, a, b]⟩]⟩
  let q : Program := ⟨#[⟨.push, 1, [a]⟩, ⟨.push, 2, [b]⟩,
    ⟨.binary .stack (.logic .and), 3, []⟩, ⟨.pop, 4, [.var v]⟩]⟩
  let m := initial ⟨[], none⟩ Buffer.unbounded Buffer.unbounded false
  have left : m.frames.Denotes a (.bool true) := rfl
  have right : m.frames.Denotes b (.bool false) := rfl
  have agree := ((forms_agree (p := p) (q := q) (n := 0) (v := v) left).2 b _ right).1
  refine ⟨p, q, m, rfl, rfl, agree (.logic .and) ?_ ?_⟩
  · exact ⟨⟨_, rfl⟩, trivial⟩
  · exact ⟨⟨_, rfl⟩, ⟨_, rfl⟩, ⟨_, rfl⟩, ⟨_, rfl⟩, trivial⟩

end

end Machine

end IppCode
