import IppCode.Machine.Operand

/-!
# Arguments and operands

What an instruction finds at an index of its arguments, and which fault it reports when it does not
find what it wants there.
-/

namespace IppCode

namespace Instruction

inductive Misfit (i : Instruction) (index : Nat) (shape : Shape) : Fault → Prop
  | missing : i.arguments[index]? = none →
      Misfit i index shape (.malformed i.opcode (.missing index))
  | wrongShape {a : Argument} : i.arguments[index]? = some a → a.fits shape = false →
      Misfit i index shape (.malformed i.opcode (.wrongShape index shape a))

variable {α : Type} {i : Instruction} {index : Nat} {shape : Shape} {fault : Fault}
  {access : Argument → Except Fault α}

theorem Misfit.unfit {a : Argument} (misfit : i.Misfit index shape fault)
    (found : i.arguments[index]? = some a) : a.fits shape = false := by
  cases misfit with
  | missing absent => simp [absent] at found
  | wrongShape other unfit =>
    rw [other, Option.some.injEq] at found
    exact found ▸ unfit

theorem bind_argumentAt_eq_ok {x : α} :
    (i.argumentAt index >>= access) = .ok x ↔
      ∃ a, i.arguments[index]? = some a ∧ access a = .ok x := by
  unfold argumentAt
  cases i.arguments[index]? <;> simp [bind, Except.bind]

theorem bind_argumentAt_eq_error :
    (i.argumentAt index >>= access) = .error fault ↔
      (i.arguments[index]? = none ∧ fault = .malformed i.opcode (.missing index)) ∨
        ∃ a, i.arguments[index]? = some a ∧ access a = .error fault := by
  unfold argumentAt
  cases i.arguments[index]? <;> simp [bind, Except.bind, eq_comm]

theorem Misfit.of_refused
    (refused : ∀ a, access a = .error fault →
      a.fits shape = false ∧ fault = .malformed i.opcode (.wrongShape index shape a))
    (h : (i.argumentAt index >>= access) = .error fault) : i.Misfit index shape fault := by
  rcases bind_argumentAt_eq_error.1 h with ⟨absent, rfl⟩ | ⟨a, found, error⟩
  · exact .missing absent
  · obtain ⟨unfit, rfl⟩ := refused a error
    exact .wrongShape found unfit

theorem variableAt_eq_ok {v : Variable} :
    i.variableAt index = .ok v ↔ i.arguments[index]? = some (.var v) := by
  rw [variableAt, bind_argumentAt_eq_ok]
  constructor
  · rintro ⟨a, found, ok⟩
    cases a <;> simp_all
  · exact fun found => ⟨_, found, rfl⟩

theorem labelAt_eq_ok {name : String} :
    i.labelAt index = .ok name ↔ i.arguments[index]? = some (.label name) := by
  rw [labelAt, bind_argumentAt_eq_ok]
  constructor
  · rintro ⟨a, found, ok⟩
    cases a <;> simp_all
  · exact fun found => ⟨_, found, rfl⟩

theorem kindAt_eq_ok {k : Kind} :
    i.kindAt index = .ok k ↔ i.arguments[index]? = some (.kind k) := by
  rw [kindAt, bind_argumentAt_eq_ok]
  constructor
  · rintro ⟨a, found, ok⟩
    cases a <;> simp_all
  · exact fun found => ⟨_, found, rfl⟩

theorem variableAt_error (h : i.variableAt index = .error fault) : i.Misfit index .var fault :=
  .of_refused (fun a error => by cases a <;> simp_all [Argument.fits]) h

theorem labelAt_error (h : i.labelAt index = .error fault) : i.Misfit index .label fault :=
  .of_refused (fun a error => by cases a <;> simp_all [Argument.fits]) h

theorem kindAt_error (h : i.kindAt index = .error fault) : i.Misfit index .kind fault :=
  .of_refused (fun a error => by cases a <;> simp_all [Argument.fits]) h

end Instruction

section
variable {α β : Type} {result : Except FrameError α} {first : Except Fault α}
  {next : α → Except Fault β} {a : α} {fault : Fault}

theorem mapError_frame_eq_ok : result.mapError Fault.frame = .ok a ↔ result = .ok a := by
  cases result with
  | ok b => constructor <;> (rintro ⟨⟩; rfl)
  | error e => exact ⟨nofun, nofun⟩

theorem mapError_frame_eq_error :
    result.mapError Fault.frame = .error fault ↔ ∃ e, result = .error e ∧ fault = .frame e := by
  cases result with
  | ok a => exact ⟨nofun, nofun⟩
  | error e =>
    constructor
    · rintro ⟨⟩
      exact ⟨e, rfl, rfl⟩
    · rintro ⟨_, ⟨⟩, rfl⟩
      rfl

theorem bind_eq_error :
    (first >>= next) = .error fault ↔
      first = .error fault ∨ ∃ a, first = .ok a ∧ next a = .error fault := by
  cases first <;> simp [bind, Except.bind]

end

theorem convert_eq_ok {literal : Literal} {x : Value} :
    convert literal = .ok x ↔ literal.value? = some x := by
  unfold convert
  cases literal.value? <;> simp

theorem convert_eq_error {literal : Literal} {fault : Fault} :
    convert literal = .error fault ↔ literal.value? = none ∧ fault = .invalidLiteral literal := by
  unfold convert
  cases literal.value? <;> simp [eq_comm]

theorem Kind.mem_all (k : Kind) : k ∈ Kind.all := by
  cases k <;> decide

theorem expect_eq_ok {opcode : Opcode} {accepted : List Kind} {x : Value} :
    expect opcode accepted x = .ok () ↔ x.kind ∈ accepted := by
  simp [expect]

theorem expect_eq_error {opcode : Opcode} {accepted : List Kind} {x : Value} {fault : Fault} :
    expect opcode accepted x = .error fault ↔
      x.kind ∉ accepted ∧ fault = .badOperand opcode x accepted := by
  unfold expect
  split <;> simp_all [eq_comm]

namespace Frames

/-- The value that an argument stands for. -/
def Denotes (fs : Frames) : Argument → Value → Prop
  | .var v, x => fs.read v = .ok x
  | .literal l, x => l.value? = some x
  | _, _ => False

inductive SymbolFault (fs : Frames) (i : Instruction) (index : Nat) : Fault → Prop
  | misfit {fault : Fault} : i.Misfit index .symbol fault → SymbolFault fs i index fault
  | literal {l : Literal} : i.arguments[index]? = some (.literal l) → l.value? = none →
      SymbolFault fs i index (.invalidLiteral l)
  | frame {v : Variable} {e : FrameError} : i.arguments[index]? = some (.var v) →
      fs.read v = .error e → SymbolFault fs i index (.frame e)

variable {fs : Frames} {i : Instruction} {index : Nat} {accepted : List Kind} {x : Value}
  {fault : Fault}

theorem symbol_eq_ok :
    fs.symbol i index = .ok x ↔ ∃ a, i.arguments[index]? = some a ∧ fs.Denotes a x := by
  rw [symbol, Instruction.bind_argumentAt_eq_ok]
  refine exists_congr fun a => and_congr_right fun _ => ?_
  cases a with
  | var v => exact mapError_frame_eq_ok
  | literal l => exact convert_eq_ok
  | label name => simp [Denotes]
  | kind k => simp [Denotes]

theorem symbol_error (h : fs.symbol i index = .error fault) : fs.SymbolFault i index fault := by
  rcases Instruction.bind_argumentAt_eq_error.1 h with ⟨absent, rfl⟩ | ⟨a, found, error⟩
  · exact .misfit (.missing absent)
  · cases a with
    | var v =>
      obtain ⟨e, read, rfl⟩ := mapError_frame_eq_error.1 error
      exact .frame found read
    | literal l =>
      obtain ⟨invalid, rfl⟩ := convert_eq_error.1 error
      exact .literal found invalid
    | label name => exact .misfit (Except.error.inj error ▸ .wrongShape found rfl)
    | kind k => exact .misfit (Except.error.inj error ▸ .wrongShape found rfl)

theorem operand_eq_error :
    fs.operand i index accepted = .error fault ↔
      fs.symbol i index = .error fault ∨
        ∃ x, fs.symbol i index = .ok x ∧ x.kind ∉ accepted ∧
          fault = .badOperand i.opcode x accepted := by
  unfold operand
  rcases fs.symbol i index with fault | x
  · simp [bind, Except.bind]
  · rcases h : expect i.opcode accepted x with fault | ⟨⟩
    · obtain ⟨unfit, rfl⟩ := expect_eq_error.1 h
      simp [bind, Except.bind, h, unfit, eq_comm]
    · have fit := expect_eq_ok.1 h
      simp [bind, Except.bind, h, pure, Except.pure, fit]

theorem operand_eq_ok :
    fs.operand i index accepted = .ok x ↔ fs.symbol i index = .ok x ∧ x.kind ∈ accepted := by
  unfold operand
  rcases fs.symbol i index with fault | y
  · simp [bind, Except.bind]
  · rcases h : expect i.opcode accepted y with fault | ⟨⟩
    · have unfit := (expect_eq_error.1 h).1
      simp only [bind, Except.bind, h]
      constructor
      · exact fun same => by cases same
      · rintro ⟨⟨⟩, fit⟩
        exact absurd fit unfit
    · have fit := expect_eq_ok.1 h
      simp only [bind, Except.bind, h, pure, Except.pure]
      constructor
      · rintro ⟨⟩
        exact ⟨rfl, fit⟩
      · exact And.left

theorem kindName_error (h : fs.kindName i index = .error fault) : fs.SymbolFault i index fault := by
  rcases Instruction.bind_argumentAt_eq_error.1 h with ⟨absent, rfl⟩ | ⟨a, found, error⟩
  · exact .misfit (.missing absent)
  · have value (failed : (fs.symbol i index >>= fun x => pure x.kind.name) = .error fault) :
        fs.SymbolFault i index fault := by
      rcases bind_eq_error.1 failed with failed | ⟨x, -, failed⟩
      · exact symbol_error failed
      · cases failed
    cases a with
    | var v =>
      rcases bind_eq_error.1 error with failed | ⟨slot, -, failed⟩
      · obtain ⟨e, absent, rfl⟩ := mapError_frame_eq_error.1 failed
        have unread : fs.read v = .error e := by
          rw [read, absent]
          rfl
        exact .frame found unread
      · cases failed
    | literal l => exact value error
    | label name => exact value error
    | kind k => exact value error

end Frames

end IppCode
