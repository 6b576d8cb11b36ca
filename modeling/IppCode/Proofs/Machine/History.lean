import IppCode.Proofs.Machine.Execution

/-!
# Histories of machines

Successive executions on one machine, event by event: an execution begins, or is refused because the
label table cannot be built; a dispatch goes on, or it ends the execution, after which the sinks are
flushed. The moments of a history are those that sessions and runs lead to (`history_iff`), and the
moments that a session passes are listed in order (`session_iff`).
-/

namespace IppCode.Machine

variable {Out Diag : Type}

/-- A machine between two executions or in the middle of one. -/
inductive Moment (Out Diag : Type) where
  | idle (m : Machine Out Diag)
  | running (m : Machine Out Diag)

def Moment.machine : Moment Out Diag → Machine Out Diag
  | idle m => m
  | running m => m

variable [Sink Out] [Sink Diag] {p : Program} {m after start : Machine Out Diag}
  {s t : Moment Out Diag} {limit : Nat}

inductive Event (p : Program) : Moment Out Diag → Moment Out Diag → Prop
  | refused {m : Machine Out Diag} {repeated : DuplicateLabel} :
      p.labels = .error repeated → Event p (.idle m)
        (.idle (m.flush (.error ⟨repeated.position, .duplicateLabel repeated.name⟩)).1)
  | begun {m : Machine Out Diag} {labels : LabelTable} :
      p.labels = .ok labels → Event p (.idle m) (.running { m with labels })
  | continued {m after : Machine Out Diag} :
      advance p m = (after, none) → Event p (.running m) (.running after)
  | ended {m after : Machine Out Diag} {result : Except RuntimeError Halt} :
      advance p m = (after, some result) → Event p (.running m) (.idle (after.flush result).1)

abbrev History (p : Program) : Moment Out Diag → Moment Out Diag → Prop :=
  Relation.ReflTransGen (Event p)

def Moment.returned? (p : Program) : Moment Out Diag → Option (Except RuntimeError Halt)
  | idle _ =>
    match p.labels with
    | .error repeated => some (.error ⟨repeated.position, .duplicateLabel repeated.name⟩)
    | .ok _ => none
  | running m => (advance p m).2.map fun result => ((advance p m).1.flush result).2

/-- A history, with the moments on the way to its last one. -/
inductive Passage (p : Program) (s : Moment Out Diag) :
    List (Moment Out Diag) → Moment Out Diag → Prop
  | start : Passage p s [] s
  | event {passed : List (Moment Out Diag)} {t u : Moment Out Diag} :
      Passage p s passed t → Event p t u → Passage p s (passed ++ [t]) u

theorem Event.unique {u : Moment Out Diag} (first : Event p s t) (second : Event p s u) :
    t = u := by
  cases first with
  | refused table =>
    cases second with
    | refused again =>
      obtain rfl := Except.error.inj (table.symm.trans again)
      rfl
    | begun other => cases table.symm.trans other
  | begun table =>
    cases second with
    | refused other => cases table.symm.trans other
    | begun again =>
      obtain rfl := Except.ok.inj (table.symm.trans again)
      rfl
  | continued next =>
    cases second with
    | continued again =>
      obtain rfl := congrArg Prod.fst (next.symm.trans again)
      rfl
    | ended other => cases next.symm.trans other
  | ended last =>
    cases second with
    | continued other => cases last.symm.trans other
    | ended again =>
      obtain ⟨rfl, same⟩ := Prod.mk.inj (last.symm.trans again)
      obtain rfl := Option.some.inj same
      rfl

theorem Passage.unique {passed others : List (Moment Out Diag)} {u : Moment Out Diag}
    (first : Passage p s passed t) (second : Passage p s others u)
    (long : others.length = passed.length) : others = passed ∧ u = t := by
  induction first generalizing others u with
  | start =>
    cases second with
    | start => exact ⟨rfl, rfl⟩
    | event => simp at long
  | event _ event ih =>
    cases second with
    | start => simp at long
    | event earlier last =>
      obtain ⟨rfl, rfl⟩ := ih earlier (by simpa using long)
      exact ⟨rfl, last.unique event⟩

theorem Passage.trans {passed later : List (Moment Out Diag)} {u : Moment Out Diag}
    (first : Passage p s passed t) (second : Passage p t later u) :
    Passage p s (passed ++ later) u := by
  induction second with
  | start => simpa using first
  | event _ event ih =>
    rw [← List.append_assoc]
    exact ih.event event

theorem Passage.history {passed : List (Moment Out Diag)} (passage : Passage p s passed t) :
    History p s t := by
  induction passage with
  | start => exact .refl
  | event _ event ih => exact ih.tail event

theorem exists_passage (history : History p s t) : ∃ passed, Passage p s passed t := by
  induction history with
  | refl => exact ⟨[], .start⟩
  | tail _ event ih =>
    obtain ⟨passed, passage⟩ := ih
    exact ⟨_, passage.event event⟩

theorem Passage.visits {passed : List (Moment Out Diag)} {u : Moment Out Diag}
    (passage : Passage p s passed t) (visited : u ∈ passed ++ [t]) : History p s u := by
  induction passage with
  | start => exact List.mem_singleton.1 visited ▸ .refl
  | event earlier event ih =>
    rcases List.mem_append.1 visited with before | now
    · exact ih before
    · exact List.mem_singleton.1 now ▸ (earlier.event event).history

theorem Passage.start_mem {passed : List (Moment Out Diag)} (passage : Passage p s passed t) :
    s ∈ passed ++ [t] := by
  induction passage with
  | start => exact List.mem_singleton_self s
  | event _ _ ih => exact List.mem_append_left _ ih

theorem execute_of_run {labels : LabelTable} {result : Except RuntimeError Halt}
    (table : p.labels = .ok labels)
    (ran : run p limit { m with labels } = (after, some result)) :
    execute p limit m = ((after.flush result).1, some (after.flush result).2) := by
  rw [execute_of_labels table, ran]

theorem Session.snoc {results : List (Except RuntimeError Halt)}
    {result : Except RuntimeError Halt} {rested : Machine Out Diag}
    (session : Session p m results rested)
    (executed : execute p limit rested = (after, some result)) :
    Session p m (results ++ [result]) after := by
  induction session with
  | done => exact .call executed .done
  | call first _ ih => exact .call first (ih executed)

theorem run_succ_of_none {result : Option (Except RuntimeError Halt)} {next : Machine Out Diag}
    (goes : run p limit m = (next, none)) (last : advance p next = (after, result)) :
    run p (limit + 1) m = (after, result) := by
  induction limit generalizing m with
  | zero =>
    obtain rfl : m = next := by simpa [run] using goes
    cases result with
    | none => simp [run, last]
    | some result => simp [run, last]
  | succ limit ih =>
    rw [run] at goes ⊢
    cases first : advance p m with
    | mk second stopped =>
      cases stopped with
      | none =>
        rw [first] at goes
        exact ih goes
      | some result => simp [first] at goes

theorem steps_of_run (goes : run p limit m = (after, none)) : Steps p m after := by
  induction limit generalizing m with
  | zero =>
    obtain rfl : m = after := by simpa [run] using goes
    exact .refl
  | succ limit ih =>
    rw [run] at goes
    cases first : advance p m with
    | mk second stopped =>
      cases stopped with
      | none =>
        rw [first] at goes
        exact .head first (ih goes)
      | some result => simp [first] at goes

theorem Steps.passage (steps : Steps p m after) :
    ∃ passed, Passage p (.running m) passed (.running after) ∧
      passed.filterMap (·.returned? p) = [] := by
  induction steps with
  | refl => exact ⟨[], .start, rfl⟩
  | @tail before _ _ last ih =>
    obtain ⟨passed, passage, silent⟩ := ih
    have goes : (Moment.running before).returned? p = none := by simp [Moment.returned?, last]
    exact ⟨_, passage.event (.continued last), by simp [silent, goes]⟩

theorem passage_of_execute {result : Option (Except RuntimeError Halt)}
    (executed : execute p limit m = (after, result)) :
    ∃ passed, Passage p (.idle m) passed
        (match result with | none => .running after | some _ => .idle after) ∧
      passed.filterMap (·.returned? p) = result.toList := by
  cases table : p.labels with
  | error repeated =>
    rw [execute_of_duplicate limit table] at executed
    obtain ⟨rfl, rfl⟩ := Prod.mk.inj executed
    exact ⟨_, .event .start (.refused table), by simp [Moment.returned?, table]⟩
  | ok labels =>
    have begins : Passage p (.idle m) [.idle m] (.running { m with labels }) :=
      .event .start (.begun table)
    have goes : (Moment.idle m).returned? p = none := by simp [Moment.returned?, table]
    rw [execute_of_labels table] at executed
    split at executed
    · rename_i stopped ran
      obtain ⟨rfl, rfl⟩ := Prod.mk.inj executed
      obtain ⟨passed, passage, silent⟩ := (steps_of_run ran).passage
      exact ⟨_, begins.trans passage, by simp [goes, silent]⟩
    · rename_i stopped final ran
      obtain ⟨rfl, rfl⟩ := Prod.mk.inj executed
      obtain ⟨last, steps, ends⟩ := run_eq_some ran
      obtain ⟨passed, passage, silent⟩ := steps.passage
      have returns : (Moment.running last).returned? p = some (stopped.flush final).2 := by
        simp [Moment.returned?, ends]
      exact ⟨_, (begins.trans passage).event (.ended ends), by simp [goes, silent, returns]⟩

def Reaches (p : Program) (start : Machine Out Diag) (results : List (Except RuntimeError Halt)) :
    Moment Out Diag → Prop
  | .idle m => Session p start results m
  | .running m => ∃ rested labels limit, Session p start results rested ∧
      p.labels = .ok labels ∧ run p limit { rested with labels } = (m, none)

theorem Reaches.event {results : List (Except RuntimeError Halt)}
    (reaches : Reaches p start results s) (event : Event p s t) :
    Reaches p start (results ++ (s.returned? p).toList) t := by
  cases event with
  | refused table =>
    simp only [Moment.returned?, table, Option.toList_some]
    exact reaches.snoc (execute_of_duplicate 0 table)
  | begun table =>
    simp only [Moment.returned?, table, Option.toList_none, List.append_nil]
    exact ⟨_, _, 0, reaches, table, rfl⟩
  | continued next =>
    obtain ⟨rested, labels, limit, session, table, goes⟩ := reaches
    simp only [Moment.returned?, next, Option.map_none, Option.toList_none, List.append_nil]
    exact ⟨rested, labels, limit + 1, session, table, run_succ_of_none goes next⟩
  | ended last =>
    obtain ⟨rested, labels, limit, session, table, goes⟩ := reaches
    simp only [Moment.returned?, last, Option.map_some, Option.toList_some]
    exact session.snoc (execute_of_run table (run_succ_of_none goes last))

theorem returned_singleton (s : Moment Out Diag) :
    [s].filterMap (·.returned? p) = (s.returned? p).toList := by
  cases h : s.returned? p <;> simp [h]

theorem Passage.reaches {passed : List (Moment Out Diag)}
    (passage : Passage p (.idle start) passed s) :
    Reaches p start (passed.filterMap (·.returned? p)) s := by
  induction passage with
  | start => exact .done
  | event _ event ih =>
    rw [List.filterMap_append, returned_singleton]
    exact ih.event event

theorem session_iff {results : List (Except RuntimeError Halt)} :
    Session p start results after ↔
      ∃ passed, Passage p (.idle start) passed (.idle after) ∧
        passed.filterMap (·.returned? p) = results := by
  constructor
  · intro session
    induction session with
    | done => exact ⟨[], .start, rfl⟩
    | call executed _ ih =>
      obtain ⟨first, passage, returned⟩ := passage_of_execute executed
      obtain ⟨later, rest, others⟩ := ih
      exact ⟨first ++ later, passage.trans rest, by simp [returned, others]⟩
  · rintro ⟨passed, passage, rfl⟩
    exact passage.reaches

/-- What leads to a moment: a session, and then a run that goes on if an execution does. -/
def Sessions (p : Program) (start : Machine Out Diag) : Moment Out Diag → Prop
  | .idle m => ∃ results, Session p start results m
  | .running m => ∃ results rested labels limit, Session p start results rested ∧
      p.labels = .ok labels ∧ run p limit { rested with labels } = (m, none)

theorem sessions_iff : Sessions p start s ↔ ∃ results, Reaches p start results s := by
  cases s <;> exact Iff.rfl

theorem history_iff : History p (.idle start) s ↔ Sessions p start s := by
  rw [sessions_iff]
  constructor
  · intro history
    obtain ⟨passed, passage⟩ := exists_passage history
    exact ⟨_, passage.reaches⟩
  · rintro ⟨results, reaches⟩
    cases s with
    | idle m =>
      obtain ⟨passed, passage, -⟩ := session_iff.1 reaches
      exact passage.history
    | running m =>
      obtain ⟨rested, labels, limit, session, table, goes⟩ := reaches
      obtain ⟨passed, passage, -⟩ := session_iff.1 session
      obtain ⟨onward, rest, -⟩ := (steps_of_run goes).passage
      exact ((passage.event (.begun table)).trans rest).history

theorem flush_fst (m : Machine Out Diag) (result : Except RuntimeError Halt) :
    ∃ output diagnostics, (m.flush result).1 = { m with output, diagnostics } := by
  rcases first : Sink.flush m.output with ⟨output, _ | text⟩ <;>
    rcases second : Sink.flush m.diagnostics with ⟨diagnostics, _ | text⟩ <;>
      cases result <;> simp [flush, first, second]

theorem execute_ok {halt : Halt} (h : execute p limit m = (after, some (.ok halt))) :
    ∃ labels last stopped output diagnostics, p.labels = .ok labels ∧
      Steps p { m with labels } last ∧ advance p last = (stopped, some (.ok halt)) ∧
      after = { stopped with output, diagnostics } := by
  rcases execute_eq_some h with
    ⟨repeated, table, same⟩ | ⟨labels, last, stopped, final, table, steps, ends, flushed⟩
  · cases same
  · obtain ⟨output, diagnostics, same⟩ := flush_fst stopped final
    obtain ⟨rfl, returned⟩ := Prod.ext_iff.1 flushed
    cases final with
    | error e => cases returned
    | ok ended =>
      rcases flush_ok stopped ended with kept | ⟨text, failed⟩
      · obtain rfl := Except.ok.inj (kept.symm.trans returned)
        exact ⟨labels, last, stopped, output, diagnostics, table, steps, ends, same⟩
      · cases failed.symm.trans returned

/-- The operation code of the instruction that comes next, if it will succeed. -/
def Moment.executes? (p : Program) : Moment Out Diag → Option Opcode
  | idle _ => none
  | running m =>
    p.instructions[m.next]?.bind fun i =>
      match (step i).run m.dispatched with
      | .ok _ _ => some i.opcode
      | .error _ _ => none

/-- What an event does to the machine, whatever the sinks keep. -/
inductive Turn (p : Program) : Moment Out Diag → Machine Out Diag → Prop
  | rested {s : Moment Out Diag} {labels : LabelTable} {output : Out} {diagnostics : Diag} :
      s.executes? p = none → Turn p s { s.machine with labels, output, diagnostics }
  | executed {m done : Machine Out Diag} {i : Instruction} {halt : Option Halt} {output : Out}
      {diagnostics : Diag} :
      p.instructions[m.next]? = some i → (step i).run m.dispatched = .ok halt done →
        Turn p (.running m) { done.account i with output, diagnostics }
  | failed {m stopped : Machine Out Diag} {i : Instruction} {fault : Fault} {output : Out}
      {diagnostics : Diag} :
      p.instructions[m.next]? = some i → (step i).run m.dispatched = .error fault stopped →
        Turn p (.running m) { stopped with output, diagnostics }

theorem Event.turn (event : Event p s t) : Turn p s t.machine := by
  cases event with
  | @refused m repeated =>
    obtain ⟨output, diagnostics, same⟩ :=
      flush_fst m (.error ⟨repeated.position, .duplicateLabel repeated.name⟩)
    rw [Moment.machine, same]
    exact .rested rfl
  | begun => exact .rested rfl
  | continued next =>
    cases advances_of_advance next with
    | continued found ok => exact .executed found ok
  | @ended _ stopped result last =>
    obtain ⟨output, diagnostics, same⟩ := flush_fst stopped result
    rw [Moment.machine, same]
    cases advances_of_advance last with
    | finished ended => exact .rested (by rw [Moment.executes?, ended, Option.bind_none])
    | exited found ok => exact .executed found ok
    | failed found error => exact .failed found error

def Moment.Labelled (p : Program) : Moment Out Diag → Prop
  | idle _ => True
  | running m => p.labels = .ok m.labels

theorem Event.labelled (event : Event p s t) (labelled : s.Labelled p) : t.Labelled p := by
  cases event with
  | refused | ended => trivial
  | begun table => exact table
  | continued next =>
    have same := Steps.labels (.single next)
    exact labelled.trans (congrArg Except.ok same.symm)

theorem History.labelled (history : History p (.idle start) s) : s.Labelled p := by
  induction history with
  | refl => trivial
  | tail _ event ih => exact event.labelled ih

end IppCode.Machine
