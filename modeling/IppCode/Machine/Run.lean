import IppCode.Machine.Step

/-!
# Runs

A run dispatches instructions from where the last one stopped until the program ends, exits or
fails. Programs may loop, so the number of instructions of a run is bounded by the caller.
-/

namespace IppCode.Machine

variable {Out Diag : Type} [Sink Out] [Sink Diag]

/-- Count an instruction that was executed. -/
def account (m : Machine Out Diag) (i : Instruction) : Machine Out Diag :=
  { m with
    executed := m.executed + 1
    statistics := m.statistics.map (·.record i.opcode i.order m.frames.liveCount) }

/-- Dispatch the next instruction. There is a result when the run ends here. The pointer moves past
the instruction before it is executed. -/
def advance (p : Program) (m : Machine Out Diag) :
    Machine Out Diag × Option (Except RuntimeError Halt) :=
  match p.instructions[m.next]? with
  | none => (m, some (.ok .finished))
  | some i =>
    match (step i).run { m with current := m.next, next := m.next + 1 } with
    | .ok halt m => (m.account i, halt.map .ok)
    | .error fault m => (m, some (.error ⟨m.current + 1, fault⟩))

/-- Dispatch at most `limit` instructions. Without a result the run was still going on. -/
def run (p : Program) : Nat → Machine Out Diag →
    Machine Out Diag × Option (Except RuntimeError Halt)
  | 0, m => (m, none)
  | limit + 1, m =>
    match advance p m with
    | (m, none) => run p limit m
    | (m, some result) => (m, some result)

/-- Flush the output and then the diagnostics. A failure is that of the instruction dispatched
last, unless the run failed by itself. -/
def flush (m : Machine Out Diag) (result : Except RuntimeError Halt) :
    Machine Out Diag × Except RuntimeError Halt :=
  let (output, failure) := Sink.flush m.output
  let m := { m with output }
  let (m, failure) := match failure with
    | some text => (m, some text)
    | none =>
      let (diagnostics, failure) := Sink.flush m.diagnostics
      ({ m with diagnostics }, failure)
  match result, failure with
  | .ok _, some text => (m, .error ⟨m.current + 1, .io text⟩)
  | result, _ => (m, result)

/-- The report of labels that make no table. The position of a repeated name is known. -/
def labelError : DecodeError → RuntimeError
  | .duplicateLabel repeated => ⟨repeated.position, .duplicateLabel repeated.name⟩
  | other => ⟨0, .malformed .label (.undecoded other)⟩

/-- Build the label table, run, and flush. -/
def execute (p : Program) (limit : Nat) (m : Machine Out Diag) :
    Machine Out Diag × Option (Except RuntimeError Halt) :=
  match p.decodeLabels.mapError labelError with
  | .error e =>
    let (m, result) := m.flush (.error e)
    (m, some result)
  | .ok labels =>
    match run p limit { m with labels } with
    | (m, none) => (m, none)
    | (m, some result) =>
      let (m, result) := m.flush result
      (m, some result)

end IppCode.Machine
