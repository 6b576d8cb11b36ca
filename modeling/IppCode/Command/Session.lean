import IppCode.Command.Options
import IppCode.Machine.Run
import IppCode.Source.Load
import IppCode.Verification

/-!
# Sessions

A session reads a source, loads and verifies it, opens the input, executes the program and writes
the statistics. The first stage that fails ends it. Every operation on a file can fail, for whatever
reason the host has.

A program writes to memory that does not run out, and what it wrote comes out when its execution
ends: failures of the standard streams are left out, and so are log messages.
-/

namespace IppCode.Command

/-- What a session needs of its surroundings. Failures are given in words. -/
class Host (m : Type → Type) where
  /-- The contents of a file, or of the standard input. -/
  readSource : Option RawText → m (Except String (List UInt8))
  openInput : Option RawText → m (Except String Input)
  saveReport : RawText → String → m (Except String Unit)
  writeOutput : List UInt8 → m Unit
  writeDiagnostics : List UInt8 → m Unit

structure Failure where
  messages : List String
  status : ExitStatus
deriving DecidableEq

instance {m : Type → Type} [Monad m] [Host m] : Host (ExceptT Failure m) where
  readSource file := ExceptT.lift (Host.readSource file)
  openInput file := ExceptT.lift (Host.openInput file)
  saveReport file text := ExceptT.lift (Host.saveReport file text)
  writeOutput bytes := ExceptT.lift (Host.writeOutput bytes)
  writeDiagnostics bytes := ExceptT.lift (Host.writeDiagnostics bytes)

def prepare (text : String) : Except Failure Program :=
  match Source.load text with
  | .error e => .error ⟨[e.message], e.status⟩
  | .ok p =>
    match Verification.errors p with
    | [] => .ok p
    | e :: rest => .error ⟨(e :: rest).map (·.message), e.status⟩

section Stages

variable {m : Type → Type} [Monad m] [Host m]

def nameOf (file : Option RawText) : String := (file.map Text.display).getD "<stdin>"

def readSource (file : Option RawText) : ExceptT Failure m String := do
  let name := nameOf file
  match ← Host.readSource file with
  | .error text => throw ⟨[s!"cannot read '{name}': {text}"], .unreadableFile⟩
  | .ok bytes =>
    match Text.ofBytes? bytes with
    | none =>
      throw ⟨[s!"cannot read '{name}': stream did not contain valid UTF-8"], .unreadableFile⟩
    | some text => return text

def openInput (file : Option RawText) : ExceptT Failure m Input := do
  let name := nameOf file
  match ← Host.openInput file with
  | .error text => throw ⟨[s!"cannot open '{name}': {text}"], .unreadableFile⟩
  | .ok input => return input

/-- Execute a program. What it wrote comes out even if it failed. -/
def execute (p : Program) (input : Input) (counting : Bool) (limit : Nat) :
    ExceptT Failure m (Option (Halt × Option Statistics)) := do
  let start := Machine.initial input Buffer.unbounded Buffer.unbounded counting
  let (machine, result) := start.execute p limit
  Host.writeOutput machine.output.bytes
  Host.writeDiagnostics machine.diagnostics.bytes
  match result with
  | none => return none
  | some (.error e) => throw ⟨[e.message], e.status⟩
  | some (.ok halt) => return some (halt, machine.statistics)

def saveReport (report : Report) (statistics : Statistics) : ExceptT Failure m Unit := do
  match ← Host.saveReport report.file (statistics.report report.selection) with
  | .error text =>
    throw ⟨[s!"cannot write '{Text.display report.file}': {text}"], .unwritableFile⟩
  | .ok () => return ()

/-- All stages. There is no exit code if the program did not end within the limit. -/
def stages (config : Config) (limit : Nat) : ExceptT Failure m (Option Nat) := do
  let text ← readSource config.source
  let p ← ExceptT.mk (pure (prepare text))
  let input ← openInput config.input
  match ← execute p input config.report.isSome limit with
  | none => return none
  | some (halt, statistics) =>
    match config.report, statistics with
    | some report, some statistics => saveReport report statistics
    | _, _ => pure ()
    return some halt.code

def session (config : Config) (limit : Nat) : m (Option Nat) := do
  match ← (stages config limit).run with
  | .ok code => return code
  | .error failure =>
    Host.writeDiagnostics
      (Text.bytes (String.join (failure.messages.map fun text => s!"ERROR: {text}\n")))
    return some failure.status.code

/-- The command with its arguments, the first of which is its own name. The result is the exit
code. -/
def invoke (parser : ArgumentParser) (argv : List RawText) (limit : Nat) : m (Option Nat) := do
  match Invocation.ofArguments parser argv with
  | .error refusal =>
    Host.writeDiagnostics (Text.bytes refusal.message)
    return some ExitStatus.badCommandLine.code
  | .ok (.print text) =>
    Host.writeOutput (Text.bytes text)
    return some ExitStatus.success.code
  | .ok (.run config) => session config limit

def command (arguments : List String) (limit : Nat) : m (Option Nat) :=
  invoke readArguments (("ippvm" :: arguments).map Text.bytes) limit

end Stages

end IppCode.Command
