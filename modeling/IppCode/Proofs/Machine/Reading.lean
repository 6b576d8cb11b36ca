import IppCode.Proofs.Machine.History
import IppCode.Proofs.Machine.Operand
import IppCode.Proofs.Machine.Parts
import IppCode.Proofs.Text.Lines

/-!
# Reading

An instruction other than `READ` neither looks at the input nor consumes any of it
(`step_blind`), and a `READ` takes the next chunk and stores what it finds there (`step_reads`). So
two passages from inputs that begin with the same chunks go through the same moments, until one of
them reads beyond these chunks (`reads_chunks`).
-/

namespace IppCode

/-- The variable and the kind of a `READ` that gets to its input. -/
def Instruction.reads? (i : Instruction) : Option (Variable × Kind) :=
  match i.opcode, i.arguments with
  | .read, .var v :: .kind k :: _ => some (v, k)
  | _, _ => none

theorem Instruction.reads?_eq_some {i : Instruction} {v : Variable} {k : Kind} :
    i.reads? = some (v, k) ↔
      i.opcode = .read ∧ i.variableAt 0 = .ok v ∧ i.kindAt 1 = .ok k := by
  rw [variableAt_eq_ok, kindAt_eq_ok]
  obtain ⟨opcode, order, arguments⟩ := i
  unfold reads?
  split
  · simp_all
  · rename_i other
    constructor
    · exact nofun
    · rintro ⟨rfl, first, second⟩
      match arguments with
      | [] => simp at first
      | [_] => simp at second
      | a :: b :: rest => simp_all

namespace Machine

variable {Out Diag α : Type} {i : Instruction} {v : Variable} {k : Kind}

def resumed (input : Input) : EStateM.Result Fault (Machine Out Diag) α →
    EStateM.Result Fault (Machine Out Diag) α
  | .ok a m => .ok a { m with input }
  | .error fault m => .error fault { m with input }

def Blind (x : Action Out Diag α) : Prop :=
  ∀ m input, x.run { m with input } = resumed input (x.run m)

theorem blind_view {f : Frames → Except Fault α} : Blind (view f : Action Out Diag α) := by
  intro m input
  simp only [EStateM.run, view]
  cases f m.frames <;> rfl

theorem blind_reframe {f : Frames → Except FrameError Frames} :
    Blind (reframe f : Action Out Diag Unit) := by
  intro m input
  simp only [EStateM.run, reframe]
  cases f m.frames <;> rfl

theorem blind_writeDiagnostics [Sink Diag] {text : String} :
    Blind (writeDiagnostics text : Action Out Diag Unit) := by
  intro m input
  simp only [EStateM.run, writeDiagnostics]
  rcases Sink.write m.diagnostics (Text.bytes text) with ⟨diagnostics, _ | failure⟩ <;> rfl

theorem blind_read (unread : i.reads? = none) (opcode : i.opcode = .read) :
    Blind (read i : Action Out Diag Unit) := by
  intro m input
  cases destination : i.variableAt 0 with
  | error fault => simp only [read, destination, EStateM.run_bind, run_lift_error, resumed]
  | ok v =>
    cases kind : i.kindAt 1 with
    | error fault =>
      simp only [read, destination, kind, EStateM.run_bind, run_lift_ok, run_lift_error, resumed]
    | ok k =>
      have reads := Instruction.reads?_eq_some.2 ⟨opcode, destination, kind⟩
      rw [unread] at reads
      cases reads

variable [Sink Out] [Sink Diag]

theorem parts_blind : Parts fun α (x : Action Out Diag α) => Blind x where
  pure _ _ _ := rfl
  throw _ _ _ := rfl
  bind {_ _ x f} first next m input := by
    rw [EStateM.run_bind, EStateM.run_bind, first m input]
    cases x.run m with
    | ok a after => exact next a after input
    | error => rfl
  view _ := blind_view
  create := blind_reframe
  pushFrame := blind_reframe
  popFrame := blind_reframe
  declare _ := blind_reframe
  assign _ _ := blind_reframe
  push _ _ _ := rfl
  requireDepth _ needed m _ := by
    by_cases short : m.stack.length < needed <;>
      simp [EStateM.run, requireDepth, resumed, short]
  takeTop _ m _ := by
    cases h : m.stack <;> simp [EStateM.run, takeTop, resumed, h]
  clear _ _ := rfl
  resolve name m _ := by
    simp only [EStateM.run, resolve]
    cases m.labels.find? name <;> rfl
  goTo _ _ _ := rfl
  call _ _ _ := rfl
  ret m _ := by
    cases h : m.calls <;> simp [EStateM.run, ret, resumed, h]
  writeOutput text m _ := by
    simp only [EStateM.run, writeOutput]
    rcases Sink.write m.output (Text.bytes text) with ⟨output, _ | failure⟩ <;> rfl
  writeDiagnostics _ := blind_writeDiagnostics
  breakpoint i m input := by
    have same : ({ m with input } : Machine Out Diag).dump i.order = m.dump i.order := rfl
    simp only [breakpoint, EStateM.run_bind, EStateM.run_get, same]
    exact blind_writeDiagnostics m input

theorem step_blind (unread : i.reads? = none) :
    Blind (step i : Action Out Diag (Option Halt)) :=
  step_of_parts parts_blind i (blind_read unread)

theorem step_reads {rest : Input} {line : Option String} {m : Machine Out Diag}
    (reads : i.reads? = some (v, k)) (taken : m.input.readLine = (rest, .ok line)) :
    (step i).run m = (proceed (assign v (.ofInput k line))).run { m with input := rest } := by
  obtain ⟨opcode, destination, kind⟩ := Instruction.reads?_eq_some.1 reads
  have found : (readLine : Action Out Diag (Option String)).run m =
      .ok line { m with input := rest } := by
    simp only [EStateM.run, readLine, taken]
  simp only [step, opcode, read, destination, kind, proceed, bind_assoc, EStateM.run_bind,
    run_lift_ok, found]

section
variable {p : Program} {m : Machine Out Diag} {input rest : Input} {line : Option String}

omit [Sink Out] [Sink Diag] in
theorem settle_resumed (result : EStateM.Result Fault (Machine Out Diag) (Option Halt)) :
    settle i (resumed input result) =
      ({ (settle i result).1 with input }, (settle i result).2) := by
  cases result <;> rfl

theorem advance_unread (found : p.instructions[m.next]? = some i) (unread : i.reads? = none) :
    advance p { m with input } = ({ (advance p m).1 with input }, (advance p m).2) := by
  rw [advance_eq_settle found, advance_eq_settle (m := { m with input }) found, ← settle_resumed]
  exact congrArg (settle i) (step_blind unread m.dispatched input)

theorem advance_reads (line : Option String) (found : p.instructions[m.next]? = some i)
    (reads : i.reads? = some (v, k)) :
    ∃ settled : Machine Out Diag × Option (Except RuntimeError Halt),
      ∀ input rest, input.readLine = (rest, .ok line) →
        advance p { m with input } = ({ settled.1 with input := rest }, settled.2) := by
  have blind : Blind (proceed (assign v (.ofInput k line)) : Action Out Diag (Option Halt)) :=
    parts_blind.proceed (parts_blind.assign v _)
  refine ⟨settle i ((proceed (assign v (.ofInput k line))).run m.dispatched), ?_⟩
  intro input rest taken
  rw [advance_eq_settle (m := { m with input }) found, step_reads reads taken, ← settle_resumed]
  exact congrArg (settle i) (blind m.dispatched rest)

/-- The next instruction reads the same line from both inputs, if it reads. -/
def SameLine (p : Program) (m : Machine Out Diag) (input : Input) : Prop :=
  ∀ i v k, p.instructions[m.next]? = some i → i.reads? = some (v, k) →
    ∃ line rest final, m.input.readLine = (rest, .ok line) ∧ input.readLine = (final, .ok line)

theorem advance_withInput (alike : SameLine p m input) :
    ∃ final, advance p { m with input } =
      ({ (advance p m).1 with input := final }, (advance p m).2) := by
  cases found : p.instructions[m.next]? with
  | none => exact ⟨input, by simp only [advance, found]⟩
  | some i =>
    cases reads : i.reads? with
    | none => exact ⟨input, advance_unread found reads⟩
    | some target =>
      obtain ⟨v, k⟩ := target
      obtain ⟨line, rest, final, here, there⟩ := alike i v k found reads
      obtain ⟨settled, reading⟩ := advance_reads line found reads
      have same : advance p m = _ := reading m.input rest here
      rw [same, reading input final there]
      exact ⟨final, rfl⟩

end

/-! ## Events -/

section
variable {p : Program} {m : Machine Out Diag} {s t : Moment Out Diag} {input rest : Input}
  {line : Option String}

def Moment.reads (p : Program) : Moment Out Diag → Bool
  | idle _ => false
  | running m => (p.instructions[m.next]?.bind Instruction.reads?).isSome

def Moment.withInput (s : Moment Out Diag) (input : Input) : Moment Out Diag :=
  match s with
  | idle m => idle { m with input }
  | running m => running { m with input }

def Moment.unread (s : Moment Out Diag) : Moment Out Diag := s.withInput ⟨[], none⟩

theorem advance_input (taken : m.input.readLine = (rest, .ok line)) :
    (advance p m).1.input = if (Moment.running m).reads p then rest else m.input := by
  cases found : p.instructions[m.next]? with
  | none => simp [advance, Moment.reads, found]
  | some i =>
    cases reads : i.reads? with
    | none =>
      have same : advance p m = _ := advance_unread (m := m) found reads
      rw [same]
      simp [Moment.reads, found, reads]
    | some target =>
      obtain ⟨settled, reading⟩ := advance_reads line found reads
      have same : advance p m = _ := reading m.input rest taken
      rw [same]
      simp [Moment.reads, found, reads]

theorem flush_input (m : Machine Out Diag) (result : Except RuntimeError Halt) :
    (m.flush result).1.input = m.input := by
  obtain ⟨output, diagnostics, same⟩ := flush_fst m result
  rw [same]

theorem flush_withInput (m : Machine Out Diag) (result : Except RuntimeError Halt) :
    ({ m with input } : Machine Out Diag).flush result =
      ({ (m.flush result).1 with input }, (m.flush result).2) := by
  rcases first : Sink.flush m.output with ⟨output, _ | text⟩ <;>
    rcases second : Sink.flush m.diagnostics with ⟨diagnostics, _ | text⟩ <;>
      cases result <;> simp [flush, first, second]

theorem Event.input_eq (event : Event p s t)
    (taken : s.machine.input.readLine = (rest, .ok line)) :
    t.machine.input = if s.reads p then rest else s.machine.input := by
  cases event with
  | refused => exact flush_input _ _
  | begun => rfl
  | @continued m after next =>
    have left : (advance p m).1.input = if (Moment.running m).reads p then rest else m.input :=
      advance_input taken
    rw [next] at left
    exact left
  | @ended m after result last =>
    have left : (advance p m).1.input = if (Moment.running m).reads p then rest else m.input :=
      advance_input taken
    rw [last] at left
    exact (flush_input _ _).trans left

theorem Event.withInput (event : Event p s t) (alike : ∀ m, s = .running m → SameLine p m input) :
    ∃ final, Event p (s.withInput input) (t.withInput final) ∧
      (s.withInput input).returned? p = s.returned? p := by
  cases event with
  | @refused m repeated table =>
    refine ⟨input, ?_, rfl⟩
    have event : Event p (.idle { m with input }) _ := .refused table
    rw [flush_withInput] at event
    exact event
  | begun table => exact ⟨input, .begun table, rfl⟩
  | @continued m after next =>
    obtain ⟨final, same⟩ := advance_withInput (alike m rfl)
    refine ⟨final, .continued (by rw [same, next]), ?_⟩
    simp only [Moment.withInput, Moment.returned?, same, next]
    rfl
  | @ended m after result last =>
    obtain ⟨final, same⟩ := advance_withInput (alike m rfl)
    rw [last] at same
    have event : Event p (.running { m with input }) _ := .ended same
    rw [flush_withInput] at event
    refine ⟨final, event, ?_⟩
    simp only [Moment.withInput, Moment.returned?, same, last, Option.map_some, flush_withInput]

omit [Sink Out] [Sink Diag] in
theorem Moment.eq_withInput (same : s.unread = t.unread) : s = t.withInput s.machine.input := by
  cases s with
  | idle m =>
    cases t with
    | idle other =>
      cases m
      cases other
      cases same
      rfl
    | running => cases same
  | running m =>
    cases t with
    | idle => cases same
    | running other =>
      cases m
      cases other
      cases same
      rfl

omit [Sink Out] [Sink Diag] in
theorem countP_reads_unread {passed : List (Moment Out Diag)} :
    (passed.map Moment.unread).countP (·.reads p) = passed.countP (·.reads p) := by
  rw [List.countP_map]
  refine List.countP_congr fun s _ => ?_
  cases s <;> exact Iff.rfl

end

/-! ## Passages -/

section
variable {p : Program} {bytes other : List UInt8} {output : Out} {diagnostics : Diag}
  {counting : Bool} {s : Moment Out Diag} {passed : List (Moment Out Diag)}

open Input

theorem Passage.input_eq
    (passage : Passage p (.idle (initial ⟨bytes, none⟩ output diagnostics counting)) passed s) :
    s.machine.input = ⟨((chunks bytes).drop (passed.countP (·.reads p))).flatten, none⟩ := by
  induction passage with
  | start =>
    have whole : (chunks bytes).flatten = bytes := List.flatten_splitBy _ _
    rw [List.countP_nil, List.drop_zero, whole]
    rfl
  | @event passed t u _ event ih =>
    have taken := readLine_chunks bytes (passed.countP (·.reads p))
    rw [← ih] at taken
    rw [event.input_eq taken, List.countP_append, List.countP_singleton]
    split
    · rfl
    · exact ih

theorem Passage.lockstep {k : Nat} (agree : ∀ j < k, (chunks bytes)[j]? = (chunks other)[j]?)
    (passage : Passage p (.idle (initial ⟨bytes, none⟩ output diagnostics counting)) passed s)
    (few : passed.countP (·.reads p) ≤ k) :
    ∃ passed' s', Passage p (.idle (initial ⟨other, none⟩ output diagnostics counting)) passed' s' ∧
      s'.unread = s.unread ∧ passed'.map Moment.unread = passed.map Moment.unread ∧
      passed'.filterMap (·.returned? p) = passed.filterMap (·.returned? p) := by
  induction passage with
  | start => exact ⟨[], _, .start, rfl, rfl, rfl⟩
  | @event passed t u earlier event ih =>
    rw [List.countP_append, List.countP_singleton] at few
    obtain ⟨passed', t', passage', same, moments, results⟩ := ih (by omega)
    -- Both inputs have lost as many chunks, so the next one is the same in both.
    have counts : passed'.countP (·.reads p) = passed.countP (·.reads p) := by
      rw [← countP_reads_unread, moments, countP_reads_unread]
    have alike (m : Machine Out Diag) (running : t = .running m) :
        SameLine p m t'.machine.input := by
      intro i v kind found reads
      subst running
      have dispatched : (Moment.running m).reads p = true := by simp [Moment.reads, found, reads]
      have next : passed.countP (·.reads p) < k := by
        rw [if_pos dispatched] at few
        exact few
      have here : m.input = _ := earlier.input_eq
      have there : t'.machine.input = _ := passage'.input_eq
      rw [here, there, counts, readLine_chunks, readLine_chunks, agree _ next]
      exact ⟨_, _, _, rfl, rfl⟩
    obtain ⟨final, event', returned⟩ := event.withInput alike
    rw [← Moment.eq_withInput same] at event' returned
    refine ⟨_, _, passage'.event event', ?_, ?_, ?_⟩
    · cases u <;> rfl
    · rw [List.map_append, List.map_append, moments, List.map_singleton, List.map_singleton, same]
    · simp only [List.filterMap_append, results, List.filterMap_cons, List.filterMap_nil, returned]

end

/-- The k-th `READ` that gets to its input takes the k-th chunk and stores the value of its text,
whether or not that succeeds, and nothing else consumes input. What has been done until a `READ`
depends on the chunks before it only. -/
theorem reads_chunks (p : Program) (bytes : List UInt8) (output : Out) (diagnostics : Diag)
    (counting : Bool) :
    (∀ passed s k, Passage p (.idle (initial ⟨bytes, none⟩ output diagnostics counting)) passed s →
      passed.countP (·.reads p) = k →
      s.machine.input = ⟨((Input.chunks bytes).drop k).flatten, none⟩ ∧
      (∀ t, Event p s t → s.reads p = false → t.machine.input = s.machine.input) ∧
      ∀ m i v kind, s = .running m → p.instructions[m.next]? = some i →
        i.reads? = some (v, kind) →
        (step i).run m.dispatched =
          (proceed (assign v (.ofInput kind ((Input.chunks bytes)[k]?.bind Input.textOf)))).run
            { m.dispatched with input := ⟨((Input.chunks bytes).drop (k + 1)).flatten, none⟩ }) ∧
    (∀ kind, Value.ofInput kind none = .nil) ∧
    ∀ other k, (∀ j < k, (Input.chunks bytes)[j]? = (Input.chunks other)[j]?) → ∀ passed s,
      Passage p (.idle (initial ⟨bytes, none⟩ output diagnostics counting)) passed s →
      passed.countP (·.reads p) ≤ k →
      (∃ passed' s', passed'.length = passed.length ∧
        Passage p (.idle (initial ⟨other, none⟩ output diagnostics counting)) passed' s') ∧
      ∀ passed' s', passed'.length = passed.length →
        Passage p (.idle (initial ⟨other, none⟩ output diagnostics counting)) passed' s' →
        s'.unread = s.unread ∧ passed'.map Moment.unread = passed.map Moment.unread ∧
        passed'.filterMap (·.returned? p) = passed.filterMap (·.returned? p) := by
  refine ⟨?_, fun _ => rfl, ?_⟩
  · rintro passed s k passage rfl
    have here := passage.input_eq
    have taken := Input.readLine_chunks bytes (passed.countP (·.reads p))
    rw [← here] at taken
    refine ⟨here, fun t event unread => ?_, ?_⟩
    · rw [event.input_eq taken, unread, if_neg Bool.false_ne_true]
    · rintro m i v kind rfl - reads
      exact step_reads reads taken
  · intro other k agree passed s passage few
    obtain ⟨matched, t, along, same, moments, results⟩ := passage.lockstep agree few
    have long : matched.length = passed.length := by
      simpa using congrArg List.length moments
    refine ⟨⟨matched, t, long, along⟩, fun passed' s' equal passage' => ?_⟩
    obtain ⟨rfl, rfl⟩ := along.unique passage' (equal.trans long.symm)
    exact ⟨same, moments, results⟩

/-- The first `READ` fails to store its line, and after that the second one reads a number. -/
theorem reads_chunks_resumed :
    ∃ (p : Program) (passed : List (Moment Buffer Buffer)) (m : Machine Buffer Buffer)
      (i : Instruction),
      p = ⟨#[⟨.read, 1, [.var ⟨.global, "y"⟩, .kind .string]⟩, i]⟩ ∧
      i = ⟨.read, 2, [.var ⟨.global, "x"⟩, .kind .int]⟩ ∧
      Passage p (.idle (initial ⟨[97, 13, 10, 55, 10], none⟩ Buffer.unbounded Buffer.unbounded
        false)) passed (.running m) ∧
      passed.countP (·.reads p) = 1 ∧
      m.input = ⟨[55, 10], none⟩ ∧
      (step i).run m.dispatched = (proceed (assign ⟨.global, "x"⟩ (.int 7))).run
        { m.dispatched with input := ⟨[], none⟩ } ∧
      ∃ passed' s', passed'.length = passed.length ∧
        Passage p (.idle (initial ⟨[97, 13, 10, 56], none⟩ Buffer.unbounded Buffer.unbounded
          false)) passed' s' ∧
        s'.unread = (Moment.running m).unread := by
  let i : Instruction := ⟨.read, 2, [.var ⟨.global, "x"⟩, .kind .int]⟩
  let p : Program := ⟨#[⟨.read, 1, [.var ⟨.global, "y"⟩, .kind .string]⟩, i]⟩
  let start : Machine Buffer Buffer :=
    initial ⟨[97, 13, 10, 55, 10], none⟩ Buffer.unbounded Buffer.unbounded false
  obtain ⟨passed, m, passage, counted, next⟩ : ∃ (passed : List (Moment Buffer Buffer)) (m : _),
      Passage p (.idle start) passed (.running m) ∧ passed.countP (·.reads p) = 1 ∧ m.next = 1 :=
    ⟨_, _, .event (.event (.event .start (.begun rfl)) (.ended rfl)) (.begun rfl), rfl, rfl⟩
  have found : p.instructions[m.next]? = some i := by
    rw [next]
    rfl
  obtain ⟨input, -, stores⟩ := (reads_chunks p _ _ _ _).1 _ _ 1 passage counted
  have second : (Input.chunks [97, 13, 10, 55, 10])[1]?.bind Input.textOf = some "7" := by
    change Input.textOf [55, 10] = some "7"
    rw [Input.textOf, Text.ofBytes?_eq_some.2 (show Text.bytes "7\n" = [55, 10] from rfl)]
    rfl
  have stored := stores m i ⟨.global, "x"⟩ .int rfl found rfl
  rw [second] at stored
  have agree : ∀ j < 1, (Input.chunks [97, 13, 10, 55, 10])[j]? =
      (Input.chunks [97, 13, 10, 56])[j]? := by decide
  obtain ⟨⟨passed', s', long, other⟩, along⟩ :=
    (reads_chunks p _ _ _ _).2.2 [97, 13, 10, 56] 1 agree _ _ passage (Nat.le_of_eq counted)
  exact ⟨p, passed, m, i, rfl, rfl, passage, counted, input, stored, passed', s', long, other,
    (along _ _ long other).1⟩

end Machine

end IppCode
