import IppCode.Proofs.Machine.Lockstep

/-!
# Resumption

Successive executions on one machine walk through one sequence of machines, each a dispatch after
the one before, and flushing the sinks in between makes no difference (`executions_walk`). An
execution that an instruction ends leaves the pointer right behind that instruction; one that
reaches the end of the program stays there.
-/

namespace IppCode.Machine

variable {Out Diag : Type} [Sink Out] [Sink Diag]

/-- The machine after a number of dispatches, whatever they lead to. -/
def walk (p : Program) (m : Machine Out Diag) : Nat → Machine Out Diag
  | 0 => m
  | n + 1 => (advance p (walk p m n)).1

def sameBytes (sinks : (c : Channel) → Sink.Bounded (c.Endpoint Out Diag) none) :
    Likeness Out Diag where
  labels := Eq
  statistics := Eq
  sinks c s t := ∃ bytes, (sinks c).Holds s bytes ∧ (sinks c).Holds t bytes

variable {sinks : (c : Channel) → Sink.Bounded (c.Endpoint Out Diag) none} {p : Program}
  {m n after start first : Machine Out Diag} {s t u : Moment Out Diag}
  {passed : List (Moment Out Diag)} {labels : LabelTable} {limit : Nat}

theorem Alike.flush (alike : Alike (sameBytes sinks) m n) (result : Except RuntimeError Halt) :
    Alike (sameBytes sinks) (m.flush result).1 n := by
  have sink (c : Channel) : (sameBytes sinks).sinks c ((m.flush result).1.sink c) (n.sink c) := by
    obtain ⟨bytes, here, there⟩ := alike.sink c
    exact ⟨bytes, flush_holds here result, there⟩
  obtain ⟨output, diagnostics, same⟩ := flush_fst m result
  rw [same] at sink ⊢
  obtain ⟨⟨⟩, ⟨⟩, -, -⟩ := alike
  exact .intro rfl rfl (sink .output) (sink .diagnostics)

theorem Alike.symm (alike : Alike (sameBytes sinks) m n) : Alike (sameBytes sinks) n m := by
  obtain ⟨⟨⟩, ⟨⟩, ⟨_, here, there⟩, ⟨_, hereToo, thereToo⟩⟩ := alike
  exact .intro rfl rfl ⟨_, there, here⟩ ⟨_, thereToo, hereToo⟩

theorem flush_result (sound : ∀ c, (sinks c).sound (m.sink c))
    (result : Except RuntimeError Halt) : (m.flush result).2 = result := by
  have first : (Sink.flush m.output).2 = none := (sinks .output).flush_eq_none (sound .output)
  have second : (Sink.flush m.diagnostics).2 = none :=
    (sinks .diagnostics).flush_eq_none (sound .diagnostics)
  rcases output : Sink.flush m.output with ⟨s, _⟩
  rcases diagnostics : Sink.flush m.diagnostics with ⟨t, _⟩
  rw [output] at first
  rw [diagnostics] at second
  subst first second
  cases result <;> simp [Machine.flush, output, diagnostics]

theorem Alike.sound (alike : Alike (sameBytes sinks) m n) (c : Channel) :
    (sinks c).sound (m.sink c) := by
  obtain ⟨bytes, here, -⟩ := alike.sink c
  exact here.sound

theorem alike_refl (sound : ∀ c, (sinks c).sound (m.sink c)) : Alike (sameBytes sinks) m m :=
  .intro rfl rfl ⟨_, ⟨sound .output, rfl⟩, ⟨sound .output, rfl⟩⟩
    ⟨_, ⟨sound .diagnostics, rfl⟩, ⟨sound .diagnostics, rfl⟩⟩

theorem Session.rests {result : Except RuntimeError Halt}
    {results : List (Except RuntimeError Halt)}
    (rests : ∀ m limit next returned, Alike (sameBytes sinks) start m →
      execute p limit m = (next, some returned) → returned = result ∧ next = (m.flush result).1)
    (alike : Alike (sameBytes sinks) start m) (session : Session p m results after) :
    (∀ returned ∈ results, returned = result) ∧ Alike (sameBytes sinks) start after := by
  induction session with
  | done => exact ⟨by simp, alike⟩
  | call executed _ ih =>
    obtain ⟨rfl, rfl⟩ := rests _ _ _ _ alike executed
    obtain ⟨same, last⟩ := ih (alike.symm.flush _).symm
    exact ⟨List.forall_mem_cons.2 ⟨rfl, same⟩, last⟩

theorem execute_of_finished (table : p.labels = .ok m.labels)
    (ended : p.instructions[m.next]? = none) (sound : ∀ c, (sinks c).sound (m.sink c))
    (limit : Nat) :
    execute p (limit + 1) m = ((m.flush (.ok .finished)).1, some (.ok .finished)) := by
  have ran : run p (limit + 1) m = (m, some (.ok .finished)) := by simp [run, advance, ended]
  rw [execute_of_run table ran, flush_result sound]

theorem execute_ends {halt : Halt} (executed : execute p limit m = (after, some (.ok halt))) :
    p.labels = .ok after.labels ∧
      ((halt = .finished ∧ p.instructions[after.next]? = none) ∨
        ∃ (i : Instruction) (n : Int64) (code : Fin 50), halt = .exit code ∧
          p.instructions[after.current]? = some i ∧ i.opcode = .exit ∧
          after.frames.symbol i 0 = .ok (.int n) ∧ (code : Int) = n.toInt) := by
  obtain ⟨labels, last, stopped, output, diagnostics, table, steps, ends, rfl⟩ :=
    execute_ok executed
  have labelled : last.labels = labels := steps.labels
  cases advances_of_advance ends with
  | finished ended => exact ⟨by rw [table, labelled], .inl ⟨rfl, ended⟩⟩
  | @exited i _ _ found ok =>
    obtain ⟨opcode, rfl, n, code, operand, number, rfl⟩ := step_halts ok
    refine ⟨?_, .inr ⟨i, n, code, rfl, found, opcode, operand, number⟩⟩
    rw [table, ← labelled]
    rfl

theorem Session.finished {results : List (Except RuntimeError Halt)}
    (table : p.labels = .ok start.labels) (ended : p.instructions[start.next]? = none)
    (sound : ∀ c, (sinks c).sound (start.sink c)) (session : Session p start results after) :
    (∀ returned ∈ results, returned = .ok .finished) ∧ Alike (sameBytes sinks) start after := by
  refine Session.rests ?_ (alike_refl sound) session
  intro m limit next returned alike executed
  have labels : p.labels = .ok m.labels := by
    rw [table]
    obtain ⟨⟨⟩, -, -, -⟩ := alike
    rfl
  cases limit with
  | zero =>
    rw [execute_of_labels labels] at executed
    cases executed
  | succ limit =>
    rw [execute_of_finished labels (alike.next ▸ ended) alike.symm.sound] at executed
    obtain ⟨rfl, same⟩ := Prod.mk.inj executed
    exact ⟨(Option.some.inj same).symm, rfl⟩

theorem Session.refused {results : List (Except RuntimeError Halt)} {repeated : DuplicateLabel}
    (table : p.labels = .error repeated) (sound : ∀ c, (sinks c).sound (start.sink c))
    (session : Session p start results after) :
    (∀ returned ∈ results,
      returned = .error ⟨repeated.position, .duplicateLabel repeated.name⟩) ∧
    Alike (sameBytes sinks) start after := by
  refine Session.rests ?_ (alike_refl sound) session
  intro m limit next returned alike executed
  rw [execute_of_duplicate limit table] at executed
  obtain ⟨rfl, same⟩ := Prod.mk.inj executed
  exact ⟨(Option.some.inj same).symm, rfl⟩

theorem Session.sound {results : List (Except RuntimeError Halt)}
    (sound : ∀ c, (sinks c).sound (start.sink c)) (session : Session p start results after)
    (c : Channel) : (sinks c).sound (after.sink c) := by
  obtain ⟨passed, passage, -⟩ := session_iff.1 session
  have holds : (sinks c).Holds (start.sink c) _ := ⟨sound c, rfl⟩
  exact (passage.holds_written holds).sound

end IppCode.Machine
