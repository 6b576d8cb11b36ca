import IppCode.Proofs.Command.Session
import IppCode.Proofs.Command.World
import IppCode.Proofs.Machine.Resumption
import IppCode.Proofs.Machine.Trace

/-!
# The stages of the command

The first stage that fails settles the exit code, and the stages after it do nothing. Otherwise the
code is that of the `EXIT` that ended the program, or zero (`command_in_stages`). The surroundings
may refuse any operation, at any time and for any reason.
-/

namespace IppCode.Command

open Machine

inductive Stage where
  | arguments
  | source
  | loading
  | verification
  | input
  | execution
  | report
deriving DecidableEq

def Stage.all : List Stage :=
  [arguments, source, loading, verification, input, execution, report]

instance : LT Stage := ⟨fun a b => Stage.all.idxOf a < Stage.all.idxOf b⟩

instance : DecidableRel (α := Stage) (· < ·) := fun a b =>
  inferInstanceAs (Decidable (Stage.all.idxOf a < Stage.all.idxOf b))

/-- What can be seen of the surroundings. -/
structure View (S : Type) where
  stdout : S → List UInt8
  content? : S → RawText → Option (List UInt8)

namespace View

variable {S : Type}

structure Same (view : View S) (s t : S) : Prop where
  stdout : view.stdout t = view.stdout s
  content : ∀ file, view.content? t file = view.content? s file

theorem Same.trans {view : View S} {s t u : S} (first : view.Same s t) (second : view.Same t u) :
    view.Same s u :=
  ⟨second.stdout.trans first.stdout, fun file => (second.content file).trans (first.content file)⟩

/-- What operations do, if they do it. A report that is refused can leave anything behind. -/
structure Lawful [Host (StateM S)] (view : View S) : Prop where
  readSource : ∀ file s, view.Same s (leave (Host.readSource file) s)
  openInput : ∀ file s, view.Same s (leave (Host.openInput file) s)
  writeDiagnostics : ∀ bytes s, view.Same s (leave (Host.writeDiagnostics bytes) s)
  writeOutput : ∀ bytes s, view.stdout (leave (Host.writeOutput bytes) s) = view.stdout s ++ bytes
  writeOutput_content : ∀ bytes s file,
    view.content? (leave (Host.writeOutput bytes) s) file = view.content? s file
  saveReport : ∀ file text s, reply (Host.saveReport file text) s = .ok () →
    view.content? (leave (Host.saveReport file text) s) file = some (Text.bytes text)

end View

section Stages

variable {S : Type} [Host (StateM S)] {view : View S} {parser : ArgumentParser}
  {argv : List RawText} {limit : Nat} {s u v : S} {config : Config} {p : Program} {input : Input}
  {m : Machine Buffer Buffer} {code : Option Nat} {stage : Stage} {status : Nat}

structure Prepares (parser : ArgumentParser) (argv : List RawText) (s : S) (config : Config)
    (p : Program) (input : Input) : Prop where
  parsed : Invocation.ofArguments parser argv = .ok (.run config)
  loaded : ∃ text, sourceText? config.source s = some text ∧ Source.load text = .ok p
  verified : Verification.errors p = []
  opened : input? config.input (leave (Host.readSource config.source) s) = some input

/-- The stage is the first one that fails, with the status, and this is the state by then. -/
inductive Fails (parser : ArgumentParser) (argv : List RawText) (limit : Nat) (s : S) :
    Stage → Nat → S → Prop
  | arguments {refusal : Refusal} :
      Invocation.ofArguments parser argv = .error refusal →
        Fails parser argv limit s .arguments 10 s
  | source {config : Config} :
      Invocation.ofArguments parser argv = .ok (.run config) →
        sourceText? config.source s = none →
        Fails parser argv limit s .source 11 (leave (Host.readSource config.source) s)
  | loading {config : Config} {text : String} {e : Source.LoadError} :
      Invocation.ofArguments parser argv = .ok (.run config) →
        sourceText? config.source s = some text → Source.load text = .error e →
        Fails parser argv limit s .loading 32 (leave (Host.readSource config.source) s)
  | verification {config : Config} {text : String} {p : Program} {e : Verification.VerifyError}
      {rest : List Verification.VerifyError} :
      Invocation.ofArguments parser argv = .ok (.run config) →
        sourceText? config.source s = some text → Source.load text = .ok p →
        Verification.errors p = e :: rest →
        Fails parser argv limit s .verification e.status.code
          (leave (Host.readSource config.source) s)
  | input {config : Config} {text : String} {p : Program} :
      Invocation.ofArguments parser argv = .ok (.run config) →
        sourceText? config.source s = some text → Source.load text = .ok p →
        Verification.errors p = [] →
        input? config.input (leave (Host.readSource config.source) s) = none →
        Fails parser argv limit s .input 11 (ready config s)
  | execution {config : Config} {p : Program} {input : Input} {m : Machine Buffer Buffer}
      {e : RuntimeError} :
      Prepares parser argv s config p input →
        (start input config.report.isSome).execute p limit = (m, some (.error e)) →
        Fails parser argv limit s .execution e.status.code (printed m (ready config s))
  | report {config : Config} {p : Program} {input : Input} {m : Machine Buffer Buffer}
      {halt : Halt} {report : Report} {stats : Statistics} {e : String} :
      Prepares parser argv s config p input →
        (start input config.report.isSome).execute p limit = (m, some (.ok halt)) →
        config.report = some report → m.statistics = some stats →
        reply (Host.saveReport report.file (stats.report report.selection))
          (printed m (ready config s)) = .error e →
        Fails parser argv limit s .report 12
          (leave (Host.saveReport report.file (stats.report report.selection))
            (printed m (ready config s)))

namespace View.Lawful

theorem ready (lawful : view.Lawful) (config : Config) (s : S) : view.Same s (ready config s) :=
  (lawful.readSource _ _).trans (lawful.openInput _ _)

theorem stdout_printed (lawful : view.Lawful) (m : Machine Buffer Buffer) (s : S) :
    view.stdout (printed m s) = view.stdout s ++ m.output.bytes :=
  (lawful.writeDiagnostics _ _).stdout.trans (lawful.writeOutput _ _)

theorem content_printed (lawful : view.Lawful) (m : Machine Buffer Buffer) (s : S)
    (file : RawText) : view.content? (printed m s) file = view.content? s file :=
  ((lawful.writeDiagnostics _ _).content file).trans (lawful.writeOutput_content _ _ file)

end View.Lawful

theorem prepare_of_clean {text : String} (loaded : Source.load text = .ok p)
    (clean : Verification.errors p = []) : prepare text = .ok p := by
  simp only [prepare, loaded, clean]

theorem Prepares.ran (prepares : Prepares parser argv s config p input)
    {result : Option (Except RuntimeError Halt)}
    (executed : (start input config.report.isSome).execute p limit = (m, result)) :
    ∃ unsaved, (invoke (m := StateM S) parser argv limit).run s =
      concluded (finish (ready config s) config unsaved m result) := by
  obtain ⟨unread, unopened, unsaved, ended⟩ := after_stages config limit s
  obtain ⟨text, read, loaded⟩ := prepares.loaded
  simp only [read, prepare_of_clean loaded prepares.verified, prepares.opened, executed] at ended
  exact ⟨unsaved, by rw [invoke_run prepares.parsed, ended]⟩

theorem ran_of_failure {failure : Failure}
    (parsed : Invocation.ofArguments parser argv = .ok (.run config))
    (ended : after (stages config limit) s = (.error failure, u)) :
    ∃ text, (invoke (m := StateM S) parser argv limit).run s =
      (some failure.status.code, leave (Host.writeDiagnostics text) u) := by
  rw [invoke_run parsed, ended]
  exact ⟨_, rfl⟩

theorem Fails.ran (fails : Fails parser argv limit s stage status u) :
    ∃ text, (invoke (m := StateM S) parser argv limit).run s =
      (some status, leave (Host.writeDiagnostics text) u) := by
  cases fails with
  | arguments refused => exact ⟨_, invoke_refused refused⟩
  | @source config parsed unread =>
    obtain ⟨_, _, _, ended⟩ := after_stages config limit s
    simp only [unread] at ended
    exact ran_of_failure parsed ended
  | @loading config _ _ parsed read unloaded =>
    obtain ⟨_, _, _, ended⟩ := after_stages config limit s
    simp only [read, prepare, unloaded] at ended
    exact ran_of_failure parsed ended
  | @verification config _ _ _ _ parsed read loaded faulty =>
    obtain ⟨_, _, _, ended⟩ := after_stages config limit s
    simp only [read, prepare, loaded, faulty] at ended
    exact ran_of_failure parsed ended
  | @input config _ _ parsed read loaded verified unopened =>
    obtain ⟨_, _, _, ended⟩ := after_stages config limit s
    simp only [read, prepare_of_clean loaded verified, unopened] at ended
    exact ran_of_failure parsed ended
  | execution prepares executed =>
    obtain ⟨_, ran⟩ := prepares.ran executed
    exact ⟨_, ran⟩
  | report prepares executed named counted refused =>
    obtain ⟨_, ran⟩ := prepares.ran executed
    simp only [finish, named, counted, refused] at ran
    exact ⟨_, ran⟩

theorem Fails.unseen (lawful : view.Lawful) (fails : Fails parser argv limit s stage status u) :
    (stage < .execution → view.Same s u) ∧
    (stage < .report → ∀ file, view.content? u file = view.content? s file) := by
  have early (same : view.Same s u) : (stage < .execution → view.Same s u) ∧
      (stage < .report → ∀ file, view.content? u file = view.content? s file) :=
    ⟨fun _ => same, fun _ => same.content⟩
  cases fails with
  | arguments => exact early ⟨rfl, fun _ => rfl⟩
  | source | loading | verification => exact early (lawful.readSource _ _)
  | input => exact early (lawful.ready _ _)
  | @execution config =>
    refine ⟨fun before => absurd before (by decide), fun _ file => ?_⟩
    exact (lawful.content_printed _ _ file).trans ((lawful.ready config s).content file)
  | report =>
    exact ⟨fun before => absurd before (by decide), fun before => absurd before (by decide)⟩

theorem exists_statistics {report : Report} {result : Option (Except RuntimeError Halt)}
    (named : config.report = some report)
    (executed : (start input config.report.isSome).execute p limit = (m, result)) :
    ∃ stats, m.statistics = some stats := by
  rw [named] at executed
  obtain ⟨passed, passage, -⟩ := passage_of_execute executed
  have counted := passage.counted.statistics
  cases result <;> exact ⟨_, counted⟩

theorem exists_passage_of_execute {counting : Bool} {result : Except RuntimeError Halt}
    (executed : (start input counting).execute p limit = (m, some result)) :
    ∃ passed, Passage p (.idle (start input counting)) passed (.idle m) ∧
      passed.filterMap (·.returned? p) = [result] ∧ m.output.bytes = written p .output passed := by
  obtain ⟨passed, passage, returned⟩ := passage_of_execute executed
  have empty : (Buffer.bounded none).Holds (start input counting).output [] :=
    ⟨⟨rfl, by simp, rfl⟩, rfl⟩
  exact ⟨passed, passage, returned, (passage.holds_written (c := .output) empty).held⟩

theorem ended_by_exit {counting : Bool} {halt : Halt}
    (executed : (start input counting).execute p limit = (m, some (.ok halt))) :
    (halt = .finished ∧ halt.code = 0 ∧ p.instructions[m.next]? = none) ∨
      ∃ (i : Instruction) (n : Int64), p.instructions[m.current]? = some i ∧ i.opcode = .exit ∧
        m.frames.symbol i 0 = .ok (.int n) ∧ (halt.code : Int) = n.toInt ∧ halt.code < 50 := by
  obtain ⟨-, ⟨rfl, ended⟩ | ⟨i, n, exitCode, rfl, found, opcode, operand, number⟩⟩ :=
    execute_ends executed
  · exact .inl ⟨rfl, rfl, ended⟩
  · exact .inr ⟨i, n, found, opcode, operand, number, exitCode.isLt⟩

theorem Prepares.succeeds (prepares : Prepares parser argv s config p input) {halt : Halt}
    (executed : (start input config.report.isSome).execute p limit = (m, some (.ok halt))) :
    (config.report = none →
      (invoke (m := StateM S) parser argv limit).run s =
        (some halt.code, printed m (ready config s))) ∧
    ∀ report stats, config.report = some report → m.statistics = some stats →
      reply (Host.saveReport report.file (stats.report report.selection))
        (printed m (ready config s)) = .ok () →
      (invoke (m := StateM S) parser argv limit).run s =
        (some halt.code, leave (Host.saveReport report.file (stats.report report.selection))
          (printed m (ready config s))) := by
  obtain ⟨unsaved, ran⟩ := prepares.ran executed
  refine ⟨fun unnamed => ?_, fun report stats named counted saved => ?_⟩
  · simp only [finish, unnamed] at ran
    exact ran
  · simp only [finish, named, counted, saved] at ran
    exact ran

theorem fails_or_prepares (unshown : ∀ text, parser argv ≠ .shown text) (limit : Nat) (s : S) :
    (∃ stage status u, Fails parser argv limit s stage status u) ∨
      ∃ config p input, Prepares parser argv s config p input := by
  cases parsed : Invocation.ofArguments parser argv with
  | error refusal => exact .inl ⟨_, _, _, .arguments parsed⟩
  | ok invocation =>
    obtain ⟨config, rfl⟩ := run_of_unshown unshown parsed
    cases read : sourceText? config.source s with
    | none => exact .inl ⟨_, _, _, .source parsed read⟩
    | some text =>
      cases loaded : Source.load text with
      | error e => exact .inl ⟨_, _, _, .loading parsed read loaded⟩
      | ok p =>
        cases verified : Verification.errors p with
        | cons e rest => exact .inl ⟨_, _, _, .verification parsed read loaded verified⟩
        | nil =>
          cases opened : input? config.input (leave (Host.readSource config.source) s) with
          | none => exact .inl ⟨_, _, _, .input parsed read loaded verified opened⟩
          | some input =>
            exact .inr ⟨config, p, input, parsed, ⟨text, read, loaded⟩, verified, opened⟩

theorem Prepares.ends (prepares : Prepares parser argv s config p input)
    (ran : (invoke (m := StateM S) parser argv limit).run s = (code, v)) :
    (∃ stage status u, Fails parser argv limit s stage status u) ∨
      ∃ m, (code = none ∧ (start input config.report.isSome).execute p limit = (m, none)) ∨
        ∃ halt, code = some halt.code ∧
          (start input config.report.isSome).execute p limit = (m, some (.ok halt)) := by
  rcases executed : (start input config.report.isSome).execute p limit with ⟨m, _ | e | halt⟩
  · obtain ⟨_, ended⟩ := prepares.ran executed
    cases ran.symm.trans ended
    exact .inr ⟨m, .inl ⟨rfl, rfl⟩⟩
  · exact .inl ⟨_, _, _, .execution prepares executed⟩
  · obtain ⟨unreported, reported⟩ := prepares.succeeds executed
    cases named : config.report with
    | none =>
      cases ran.symm.trans (unreported named)
      exact .inr ⟨m, .inr ⟨halt, rfl, rfl⟩⟩
    | some report =>
      obtain ⟨stats, counted⟩ := exists_statistics named executed
      cases saved : reply (Host.saveReport report.file (stats.report report.selection))
          (printed m (ready config s)) with
      | error e => exact .inl ⟨_, _, _, .report prepares executed named counted saved⟩
      | ok _ =>
        cases ran.symm.trans (reported report stats named counted saved)
        exact .inr ⟨m, .inr ⟨halt, rfl, rfl⟩⟩

/-- What a run works on is what the parser found, with the counters in the order it saw them in. Of
the stages up to the writing of the report, a failure leaves all files as they were. -/
theorem command_in_stages (lawful : view.Lawful) (documented : parser.Documented)
    (argv : List RawText) (limit : Nat) (s v : S) (code : Option Nat)
    (unshown : ∀ text, parser argv ≠ .shown text)
    (ran : (invoke (m := StateM S) parser argv limit).run s = (code, v)) :
    (∀ config, Invocation.ofArguments parser argv = .ok (.run config) →
      ∃ found, parser argv = .matched found ∧ config.source = found.source ∧
        config.input = found.input ∧
        config.report = found.stats.map fun file => ⟨file, found.seen.filterMap Item.counter?⟩) ∧
    (∀ stage status u, Fails parser argv limit s stage status u →
      code = some status ∧ (∃ text, v = leave (Host.writeDiagnostics text) u) ∧
      (stage < .execution → view.stdout v = view.stdout s) ∧
      (stage < .report → ∀ file, view.content? v file = view.content? s file)) ∧
    (∀ config p input m result, Prepares parser argv s config p input →
      (start input config.report.isSome).execute p limit = (m, some result) →
      (∃ passed, Passage p (.idle (start input config.report.isSome)) passed (.idle m) ∧
        passed.filterMap (·.returned? p) = [result] ∧
        view.stdout (printed m (ready config s)) = view.stdout s ++ written p .output passed) ∧
      (∀ e, result = .error e →
        view.stdout v = view.stdout (printed m (ready config s))) ∧
      ∀ halt, result = .ok halt →
        ((halt = .finished ∧ halt.code = 0 ∧ p.instructions[m.next]? = none) ∨
          ∃ (i : Instruction) (n : Int64), p.instructions[m.current]? = some i ∧
            i.opcode = .exit ∧ m.frames.symbol i 0 = .ok (.int n) ∧
            (halt.code : Int) = n.toInt ∧ halt.code < 50) ∧
        (config.report = none →
          code = some halt.code ∧ v = printed m (ready config s) ∧
          ∀ file, view.content? v file = view.content? s file) ∧
        ∀ report, config.report = some report → ∃ stats, m.statistics = some stats ∧
          ∀ text, text = String.join
            (report.selection.map fun c => toString (stats.count c) ++ "\n") →
            let saves := Host.saveReport report.file text
            (reply saves (printed m (ready config s)) = .ok () →
              code = some halt.code ∧ v = leave saves (printed m (ready config s)) ∧
              view.content? v report.file = some (Text.bytes text)) ∧
            ∀ e, reply saves (printed m (ready config s)) = .error e → code = some 12) ∧
    ((∃ stage status u, Fails parser argv limit s stage status u) ∨
      ∃ config p input m, Prepares parser argv s config p input ∧
        ((code = none ∧ (start input config.report.isSome).execute p limit = (m, none)) ∨
          ∃ halt, code = some halt.code ∧
            (start input config.report.isSome).execute p limit = (m, some (.ok halt)))) := by
  refine ⟨(selection_scanned documented argv).2.1, fun stage status u fails => ?_, ?_, ?_⟩
  · obtain ⟨text, failed⟩ := fails.ran
    obtain ⟨early, unsaved⟩ := fails.unseen lawful
    cases ran.symm.trans failed
    have reported := lawful.writeDiagnostics text u
    exact ⟨rfl, ⟨text, rfl⟩, fun before => reported.stdout.trans (early before).stdout,
      fun before file => (reported.content file).trans (unsaved before file)⟩
  · intro config p input m result prepares executed
    obtain ⟨passed, passage, returned, output⟩ := exists_passage_of_execute executed
    have printed := lawful.stdout_printed m (ready config s)
    refine ⟨⟨passed, passage, returned, ?_⟩, ?_, ?_⟩
    · rw [printed, (lawful.ready config s).stdout, output]
    · rintro e rfl
      obtain ⟨text, failed⟩ := (Fails.execution prepares executed).ran
      cases ran.symm.trans failed
      exact (lawful.writeDiagnostics text _).stdout
    · rintro halt rfl
      obtain ⟨unreported, reported⟩ := prepares.succeeds executed
      refine ⟨ended_by_exit executed, fun unnamed => ?_, fun report named => ?_⟩
      · cases ran.symm.trans (unreported unnamed)
        refine ⟨rfl, rfl, fun file => ?_⟩
        exact (lawful.content_printed m _ file).trans ((lawful.ready config s).content file)
      · obtain ⟨stats, counted⟩ := exists_statistics named executed
        refine ⟨stats, counted, ?_⟩
        rintro text rfl
        refine ⟨fun saved => ?_, fun e refused => ?_⟩
        · cases ran.symm.trans (reported report stats named counted saved)
          exact ⟨rfl, rfl, lawful.saveReport _ _ _ saved⟩
        · obtain ⟨text, failed⟩ := (Fails.report prepares executed named counted refused).ran
          cases ran.symm.trans failed
          rfl
  · rcases fails_or_prepares unshown limit s with fails | ⟨config, p, input, prepares⟩
    · exact .inl fails
    · rcases prepares.ends ran with fails | ⟨m, ended⟩
      · exact .inl fails
      · exact .inr ⟨config, p, input, m, prepares, ended⟩

end Stages

def World.view : View World where
  stdout := World.stdout
  content? w file := (w.read file).toOption

theorem World.view_same {w w' : World} (nodes : w'.nodes = w.nodes)
    (stdout : w'.stdout = w.stdout) : World.view.Same w w' :=
  ⟨stdout, fun _ => congrArg Except.toOption (read_congr nodes)⟩

theorem World.view_lawful : World.view.Lawful where
  readSource file w := by cases file <;> exact view_same rfl rfl
  openInput file w := by cases file <;> exact view_same rfl rfl
  writeDiagnostics bytes w := view_same rfl rfl
  writeOutput bytes w := rfl
  writeOutput_content bytes w file := congrArg Except.toOption (read_congr rfl)
  saveReport file text w ok := by
    simp only [reply, leave, Host.saveReport, StateT.run] at ok ⊢
    cases saved : w.save file (Text.bytes text) with
    | error e => simp [saved] at ok
    | ok w' => exact congrArg Except.toOption (read_save saved)

theorem command_in_stages_exited : ∃ (w v : World) (argv : List RawText),
    argv = ["ippvm", "--source", "p", "--stats=s", "--hot", "--insts"].map Text.bytes ∧
    w = .containing [("p", .file (Text.bytes ".IPPcode22\nWRITE string@a\nEXIT int@7"))] [] ∧
    (invoke (m := StateM World) readArguments argv 9).run w = (some 7, v) ∧
    (v.content "s").toOption = some (Text.bytes "1\n2\n") := by
  let argv : List RawText :=
    ["ippvm", "--source", "p", "--stats=s", "--hot", "--insts"].map Text.bytes
  let w : World :=
    .containing [("p", .file (Text.bytes ".IPPcode22\nWRITE string@a\nEXIT int@7"))] []
  let report : Report := ⟨Text.bytes "s", [.hottest, .executed]⟩
  let config : Config := ⟨some (Text.bytes "p"), none, some report⟩
  let p : Program :=
    ⟨#[⟨.write, 1, [.literal ⟨.string, "a"⟩]⟩, ⟨.exit, 2, [.literal ⟨.int, "7"⟩]⟩]⟩
  have parsed : Invocation.ofArguments readArguments argv = .ok (.run config) := rfl
  have loaded : Source.load ".IPPcode22\nWRITE string@a\nEXIT int@7" = .ok p := by rfl
  have found : w.content "p" = .ok (Text.bytes ".IPPcode22\nWRITE string@a\nEXIT int@7") := rfl
  have read : sourceText? config.source w = some ".IPPcode22\nWRITE string@a\nEXIT int@7" := by
    have replied : reply (Host.readSource config.source) w = .ok (Text.bytes
      ".IPPcode22\nWRITE string@a\nEXIT int@7") := rfl
    rw [sourceText?, replied]
    exact Text.ofBytes?_eq_some.2 rfl
  have prepares : Prepares readArguments argv w config p ⟨[], none⟩ :=
    ⟨parsed, ⟨_, read, loaded⟩, rfl, rfl⟩
  obtain ⟨m, executed, statistics⟩ : ∃ m,
      (start ⟨[], none⟩ config.report.isSome).execute p 9 = (m, some (.ok (.exit 7))) ∧
      m.statistics = some ⟨2, [((.write, 1), 1), ((.exit, 2), 1)], 0⟩ := ⟨_, rfl, rfl⟩
  rcases ran : (invoke (m := StateM World) readArguments argv 9).run w with ⟨code, v⟩
  have lawful := World.view_lawful
  have unshown (text : String) : readArguments argv ≠ .shown text := fun shown => by cases shown
  obtain ⟨-, -, ended, -⟩ := command_in_stages lawful readArguments_documented argv 9 w v code
    unshown ran
  obtain ⟨-, -, halts⟩ := ended config p ⟨[], none⟩ m _ prepares executed
  obtain ⟨-, -, reported⟩ := halts _ rfl
  obtain ⟨stats, counted, written⟩ := reported report rfl
  obtain rfl := Option.some.inj (counted.symm.trans statistics)
  obtain ⟨rfl, -, content⟩ := (written "1\n2\n" rfl).1 rfl
  exact ⟨w, v, argv, rfl, rfl, ran, content⟩

end IppCode.Command
