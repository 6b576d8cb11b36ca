import IppCode.Command.Session
import IppCode.Proofs.Command.Selection

/-!
# Sessions on a host

What each stage of a session ends with and the state in which it leaves the host, whatever the host
replies (`after_stages`).
-/

namespace IppCode.Command

section
variable {S α : Type}

def reply (operation : StateM S α) (s : S) : α := (operation.run s).1

def leave (operation : StateM S α) (s : S) : S := (operation.run s).2

end

section
variable {S : Type} [Host (StateM S)]

def sourceText? (file : Option RawText) (s : S) : Option String :=
  (reply (Host.readSource file) s).toOption.bind Text.ofBytes?

def input? (file : Option RawText) (s : S) : Option Input :=
  (reply (Host.openInput file) s).toOption

/-- The state after what a program wrote came out. -/
def printed (m : Machine Buffer Buffer) (s : S) : S :=
  leave (Host.writeDiagnostics m.diagnostics.bytes) (leave (Host.writeOutput m.output.bytes) s)

def ready (config : Config) (s : S) : S :=
  leave (Host.openInput config.input) (leave (Host.readSource config.source) s)

end

section Stages

variable {S α β : Type} [Host (StateM S)] {x : ExceptT Failure (StateM S) α}
  {f : α → ExceptT Failure (StateM S) β} {s t : S} {a : α} {failure : Failure}
  {parser : ArgumentParser} {argv : List RawText} {config : Config} {limit : Nat}

def after (x : ExceptT Failure (StateM S) α) (s : S) : Except Failure α × S :=
  x.run.run s

omit [Host (StateM S)] in
theorem after_bind :
    after (x >>= f) s =
      match after x s with
      | (.ok a, t) => after (f a) t
      | (.error failure, t) => (.error failure, t) := by
  rcases ended : after x s with ⟨failure | a, t⟩ <;>
    simp_all [after, ExceptT.run_bind, StateT.run_bind] <;> rfl

omit [Host (StateM S)] in
theorem after_bind_ok (ok : after x s = (.ok a, t)) : after (x >>= f) s = after (f a) t := by
  rw [after_bind, ok]

omit [Host (StateM S)] in
theorem after_bind_error (error : after x s = (.error failure, t)) :
    after (x >>= f) s = (.error failure, t) := by
  rw [after_bind, error]

omit [Host (StateM S)] in
theorem after_lift (operation : StateM S α) :
    after (ExceptT.lift operation : ExceptT Failure (StateM S) α) s =
      (.ok (reply operation s), leave operation s) := rfl

theorem after_readSource (file : Option RawText) (s : S) : ∃ messages,
    after (readSource file) s =
      ((sourceText? file s).elim (.error ⟨messages, .unreadableFile⟩) .ok,
        leave (Host.readSource file) s) := by
  unfold readSource
  have host : after (Host.readSource file) s =
    (.ok (reply (Host.readSource file) s), leave (Host.readSource file) s) := after_lift _
  rw [after_bind_ok host, sourceText?]
  cases reply (Host.readSource file) s with
  | error e => exact ⟨_, rfl⟩
  | ok bytes =>
    cases read : Text.ofBytes? bytes with
    | none => exact ⟨_, by simp only [Except.toOption, Option.bind_some, read]; rfl⟩
    | some text => exact ⟨[], by simp only [Except.toOption, Option.bind_some, read]; rfl⟩

theorem after_openInput (file : Option RawText) (s : S) : ∃ messages,
    after (openInput file) s =
      ((input? file s).elim (.error ⟨messages, .unreadableFile⟩) .ok,
        leave (Host.openInput file) s) := by
  unfold openInput
  have host : after (Host.openInput file) s =
    (.ok (reply (Host.openInput file) s), leave (Host.openInput file) s) := after_lift _
  rw [after_bind_ok host, input?]
  cases reply (Host.openInput file) s with
  | error e => exact ⟨_, rfl⟩
  | ok input => exact ⟨[], rfl⟩

def start (input : Input) (counting : Bool) : Machine Buffer Buffer :=
  .initial input .unbounded .unbounded counting

theorem after_execute (p : Program) (input : Input) (counting : Bool) (limit : Nat) (s : S)
    {m : Machine Buffer Buffer} {result : Option (Except RuntimeError Halt)}
    (executed : (start input counting).execute p limit = (m, result)) :
    after (execute p input counting limit) s =
      (match result with
        | none => .ok none
        | some (.error e) => .error ⟨[e.message], e.status⟩
        | some (.ok halt) => .ok (some (halt, m.statistics)), printed m s) := by
  unfold execute
  rw [start] at executed
  simp only [executed]
  rw [after_bind_ok (show after (Host.writeOutput m.output.bytes) s = (.ok (), _) from rfl),
    after_bind_ok (show after (Host.writeDiagnostics m.diagnostics.bytes) _ = (.ok (), _) from rfl)]
  rcases result with _ | _ | _ <;> rfl

theorem after_saveReport (report : Report) (stats : Statistics) (s : S) : ∃ messages,
    after (saveReport report stats) s =
      ((reply (Host.saveReport report.file (stats.report report.selection)) s).mapError
        fun _ => ⟨messages, .unwritableFile⟩,
        leave (Host.saveReport report.file (stats.report report.selection)) s) := by
  unfold saveReport
  have host : after (Host.saveReport report.file (stats.report report.selection)) s =
    (.ok (reply (Host.saveReport report.file (stats.report report.selection)) s),
      leave (Host.saveReport report.file (stats.report report.selection)) s) := after_lift _
  rw [after_bind_ok host]
  cases reply (Host.saveReport report.file (stats.report report.selection)) s with
  | error e => exact ⟨_, rfl⟩
  | ok _ => exact ⟨[], rfl⟩

omit [Host (StateM S)] in
theorem after_prepare (text : String) (s : S) :
    after (ExceptT.mk (pure (prepare text))) s = (prepare text, s) := rfl

/-- What a session ends with after an execution. A failed report has the messages. -/
def finish (s : S) (config : Config) (messages : List String) (m : Machine Buffer Buffer) :
    Option (Except RuntimeError Halt) → Except Failure (Option Nat) × S
  | none => (.ok none, printed m s)
  | some (.error e) => (.error ⟨[e.message], e.status⟩, printed m s)
  | some (.ok halt) =>
    match config.report, m.statistics with
    | some report, some stats =>
      let saves := Host.saveReport report.file (stats.report report.selection)
      match reply saves (printed m s) with
      | .ok () => (.ok (some halt.code), leave saves (printed m s))
      | .error _ => (.error ⟨messages, .unwritableFile⟩, leave saves (printed m s))
    | _, _ => (.ok (some halt.code), printed m s)

theorem after_report (config : Config) (m : Machine Buffer Buffer) (halt : Halt) (s : S) :
    ∃ unsaved, after (do
      match config.report, m.statistics with
      | some report, some statistics => saveReport report statistics
      | _, _ => pure ()
      return some halt.code) (printed m s) = finish s config unsaved m (some (.ok halt)) := by
  simp only [finish]
  cases config.report with
  | none => exact ⟨[], rfl⟩
  | some report =>
    cases m.statistics with
    | none => exact ⟨[], rfl⟩
    | some stats =>
      obtain ⟨unsaved, reported⟩ := after_saveReport report stats (printed m s)
      refine ⟨unsaved, ?_⟩
      dsimp only
      cases saved : reply (Host.saveReport report.file (stats.report report.selection))
          (printed m s) with
      | error e =>
        rw [saved] at reported
        exact after_bind_error reported
      | ok _ =>
        rw [saved] at reported
        exact after_bind_ok reported

theorem after_stages (config : Config) (limit : Nat) (s : S) : ∃ unread unopened unsaved,
    after (stages config limit) s =
      match sourceText? config.source s with
      | none => (.error ⟨unread, .unreadableFile⟩, leave (Host.readSource config.source) s)
      | some text =>
        match prepare text with
        | .error failure => (.error failure, leave (Host.readSource config.source) s)
        | .ok p =>
          match input? config.input (leave (Host.readSource config.source) s) with
          | none => (.error ⟨unopened, .unreadableFile⟩, ready config s)
          | some input =>
            let (m, result) := (start input config.report.isSome).execute p limit
            finish (ready config s) config unsaved m result := by
  obtain ⟨unread, source⟩ := after_readSource config.source s
  obtain ⟨unopened, opened⟩ :=
    after_openInput config.input (leave (Host.readSource config.source) s)
  rw [← ready] at opened
  refine ⟨unread, unopened, ?_⟩
  unfold stages
  cases read : sourceText? config.source s with
  | none =>
    rw [read] at source
    exact ⟨[], after_bind_error source⟩
  | some text =>
    rw [read] at source
    rw [after_bind_ok source]
    have loaded := after_prepare text (leave (Host.readSource config.source) s)
    cases prepared : prepare text with
    | error failure =>
      rw [prepared] at loaded
      refine ⟨[], ?_⟩
      simp only [prepared]
      exact after_bind_error loaded
    | ok p =>
      rw [prepared] at loaded
      simp only [prepared]
      rw [after_bind_ok loaded]
      cases found : input? config.input (leave (Host.readSource config.source) s) with
      | none =>
        rw [found] at opened
        exact ⟨[], after_bind_error opened⟩
      | some input =>
        rw [found] at opened
        simp only [after_bind_ok opened]
        rcases executed : (start input config.report.isSome).execute p limit with ⟨m, result⟩
        have ran := after_execute p input config.report.isSome limit (ready config s) executed
        rcases result with _ | e | halt
        · exact ⟨[], after_bind_ok ran⟩
        · exact ⟨[], after_bind_error ran⟩
        · obtain ⟨unsaved, reported⟩ := after_report config m halt (ready config s)
          exact ⟨unsaved, (after_bind_ok ran).trans reported⟩

def concluded : Except Failure (Option Nat) × S → Option Nat × S
  | (.ok code, s) => (code, s)
  | (.error failure, s) =>
    let lines := failure.messages.map fun text => s!"ERROR: {text}\n"
    (some failure.status.code, leave (Host.writeDiagnostics (Text.bytes (String.join lines))) s)

theorem invoke_run (parsed : Invocation.ofArguments parser argv = .ok (.run config)) :
    (invoke (m := StateM S) parser argv limit).run s =
      concluded (after (stages config limit) s) := by
  simp only [invoke, parsed, session, after, StateT.run_bind]
  rcases (stages (m := StateM S) config limit).run.run s with ⟨_ | _, _⟩ <;> rfl

theorem invoke_refused {refusal : Refusal}
    (refused : Invocation.ofArguments parser argv = .error refusal) :
    (invoke (m := StateM S) parser argv limit).run s =
      (some 10, leave (Host.writeDiagnostics (Text.bytes refusal.message)) s) := by
  simp only [invoke, refused]
  rfl

end Stages

end IppCode.Command
