import IppCode.Proofs.Machine.Emission
import IppCode.Proofs.Machine.Parts
import Mathlib.Data.List.Forall2

/-!
# Lockstep

Two machines that agree on everything that instructions look at go on to agree, while what they
write fails on both sides or on none (`Event.alike`). What may differ is a parameter: the label
tables as long as labels are found at the same places, the statistics, and the sinks. The programs
may differ in orders and in the spelling of labels.
-/

namespace IppCode.Machine

variable {Out Diag : Type}

/-- Which differences do not count. -/
structure Likeness (Out Diag : Type) where
  labels : LabelTable → LabelTable → Prop
  statistics : Option Statistics → Option Statistics → Prop
  sinks (c : Channel) : c.Endpoint Out Diag → c.Endpoint Out Diag → Prop

inductive Alike (k : Likeness Out Diag) (m : Machine Out Diag) : Machine Out Diag → Prop
  | intro {labels : LabelTable} {statistics : Option Statistics} {output : Out}
      {diagnostics : Diag} :
      k.labels m.labels labels → k.statistics m.statistics statistics →
      k.sinks .output m.output output → k.sinks .diagnostics m.diagnostics diagnostics →
        Alike k m { m with labels, statistics, output, diagnostics }

/-- Equal results, or faults that differ in the spelling only. -/
def Matches (k : Likeness Out Diag) (f : String → String) {α : Type} :
    EStateM.Result Fault (Machine Out Diag) α → EStateM.Result Fault (Machine Out Diag) α → Prop
  | .ok a m, .ok b n => b = a ∧ Alike k m n
  | .error fault m, .error other n => other = fault.respell f ∧ Alike k m n
  | _, _ => False

def Mirrors (k : Likeness Out Diag) (f : String → String) {α : Type}
    (x y : Action Out Diag α) : Prop :=
  ∀ m n, Alike k m n → Matches k f (x.run m) (y.run n)

variable {k : Likeness Out Diag} {f : String → String} {i j : Instruction}
  {m n : Machine Out Diag} {c : Channel}

theorem Alike.frames (alike : Alike k m n) : n.frames = m.frames := by
  cases alike
  rfl

theorem Alike.next (alike : Alike k m n) : n.next = m.next := by
  cases alike
  rfl

theorem Alike.dispatched (alike : Alike k m n) : Alike k m.dispatched n.dispatched := by
  obtain ⟨labels, statistics, output, diagnostics⟩ := alike
  exact .intro labels statistics output diagnostics

theorem Alike.sink (alike : Alike k m n) (c : Channel) : k.sinks c (m.sink c) (n.sink c) := by
  obtain ⟨-, -, output, diagnostics⟩ := alike
  cases c with
  | output => exact output
  | diagnostics => exact diagnostics

theorem Alike.withSink {s t : c.Endpoint Out Diag} (alike : Alike k m n) (same : k.sinks c s t) :
    Alike k (m.withSink c s) (n.withSink c t) := by
  obtain ⟨labels, statistics, output, diagnostics⟩ := alike
  cases c with
  | output => exact .intro labels statistics same diagnostics
  | diagnostics => exact .intro labels statistics output same

theorem mirrors_view {α : Type} {g h : Frames → Except Fault α}
    (same : ∀ fs, h fs = (g fs).mapError (·.respell f)) : Mirrors k f (view g) (view h) := by
  intro m n alike
  rw [run_view, run_view, alike.frames, same]
  cases g m.frames with
  | ok a => exact ⟨rfl, alike⟩
  | error fault => exact ⟨rfl, alike⟩

theorem mirrors_reframe {g : Frames → Except FrameError Frames} :
    Mirrors k f (reframe g) (reframe g) := by
  rintro m _ ⟨labels, statistics, output, diagnostics⟩
  simp only [EStateM.run, reframe]
  cases g m.frames with
  | ok frames => exact ⟨rfl, .intro labels statistics output diagnostics⟩
  | error e => exact ⟨rfl, .intro labels statistics output diagnostics⟩

theorem mirrors_bind {α β : Type} {x y : Action Out Diag α} {g h : α → Action Out Diag β}
    (first : Mirrors k f x y) (next : ∀ a, Mirrors k f (g a) (h a)) :
    Mirrors k f (x >>= g) (y >>= h) := by
  intro m n alike
  have both := first m n alike
  rw [EStateM.run_bind, EStateM.run_bind]
  cases here : x.run m with
  | ok a after =>
    cases there : y.run n with
    | ok b other =>
      rw [here, there] at both
      obtain ⟨rfl, alike⟩ := both
      exact next b _ _ alike
    | error => simp [here, there, Matches] at both
  | error fault after =>
    cases there : y.run n with
    | ok => simp [here, there, Matches] at both
    | error =>
      rw [here, there] at both
      exact both

theorem mirrors_branchTarget (respelt : i.Respelt f j)
    (found : ∀ t u, k.labels t u → ∀ name, .label name ∈ i.arguments →
      u.find? (f name) = t.find? name) :
    Mirrors k f (branchTarget i) (branchTarget j) := by
  rintro m _ ⟨labels, statistics, output, diagnostics⟩
  simp only [branchTarget, lift, EStateM.run_bind, run_view, respelt.labelAt]
  cases target : i.labelAt 0 with
  | error fault => exact ⟨rfl, .intro labels statistics output diagnostics⟩
  | ok name =>
    have member := List.mem_of_getElem? (Instruction.labelAt_eq_ok.1 target)
    have same := found _ _ labels name member
    show Matches k f ((resolve name).run m) ((resolve (f name)).run _)
    simp only [EStateM.run, resolve, same]
    cases m.labels.find? name with
    | some position => exact ⟨rfl, .intro labels statistics output diagnostics⟩
    | none => exact ⟨rfl, .intro labels statistics output diagnostics⟩

theorem mirrors_readLine : Mirrors k f (readLine : Action Out Diag (Option String)) readLine := by
  rintro m _ ⟨labels, statistics, output, diagnostics⟩
  simp only [EStateM.run, readLine]
  rcases m.input.readLine with ⟨input, text | line⟩
  · exact ⟨rfl, .intro labels statistics output diagnostics⟩
  · exact ⟨rfl, .intro labels statistics output diagnostics⟩

theorem twins_mirror (respelt : i.Respelt f j)
    (found : ∀ t u, k.labels t u → ∀ name, .label name ∈ i.arguments →
      u.find? (f name) = t.find? name) :
    Twins f i j fun _ (x y : Action Out Diag _) => Mirrors k f x y where
  pure _ _ _ alike := ⟨rfl, alike⟩
  throw dynamic _ _ alike := ⟨(Fault.respell_of_dynamic dynamic).symm, alike⟩
  bind := mirrors_bind
  view := mirrors_view
  create := mirrors_reframe
  pushFrame := mirrors_reframe
  popFrame := mirrors_reframe
  declare _ := mirrors_reframe
  assign _ _ := mirrors_reframe
  push _ := by
    rintro m _ ⟨labels, statistics, output, diagnostics⟩
    exact ⟨rfl, .intro labels statistics output diagnostics⟩
  requireDepth opcode needed := by
    rintro m _ ⟨labels, statistics, output, diagnostics⟩
    simp only [EStateM.run, requireDepth]
    by_cases short : m.stack.length < needed
    · rw [if_pos short, if_pos short]
      exact ⟨rfl, .intro labels statistics output diagnostics⟩
    · rw [if_neg short, if_neg short]
      exact ⟨rfl, .intro labels statistics output diagnostics⟩
  takeTop opcode := by
    rintro m _ ⟨labels, statistics, output, diagnostics⟩
    simp only [EStateM.run, takeTop]
    cases stack : m.stack with
    | nil => exact ⟨rfl, stack ▸ .intro labels statistics output diagnostics⟩
    | cons a rest => exact ⟨rfl, .intro labels statistics output diagnostics⟩
  clear := by
    rintro m _ ⟨labels, statistics, output, diagnostics⟩
    exact ⟨rfl, .intro labels statistics output diagnostics⟩
  branchTarget := mirrors_branchTarget respelt found
  goTo _ := by
    rintro m _ ⟨labels, statistics, output, diagnostics⟩
    exact ⟨rfl, .intro labels statistics output diagnostics⟩
  call _ := by
    rintro m _ ⟨labels, statistics, output, diagnostics⟩
    exact ⟨rfl, .intro labels statistics output diagnostics⟩
  ret := by
    rintro m _ ⟨labels, statistics, output, diagnostics⟩
    simp only [EStateM.run, ret]
    cases calls : m.calls with
    | nil => exact ⟨rfl, calls ▸ .intro labels statistics output diagnostics⟩
    | cons position rest => exact ⟨rfl, .intro labels statistics output diagnostics⟩

def reordered (i j : Instruction) : Instruction := { i with order := j.order }

theorem emission_alike (respelt : i.Respelt f j) (alike : Alike k m n) :
    n.emission? j = m.emission? (reordered i j) := by
  obtain ⟨labels, statistics, output, diagnostics⟩ := alike
  have symbol : (m.frames.symbol j 0).toOption = (m.frames.symbol (reordered i j) 0).toOption := by
    rw [respelt.symbol m.frames]
    show _ = (m.frames.symbol i 0).toOption
    cases m.frames.symbol i 0 <;> rfl
  have opcode : (reordered i j).opcode = i.opcode := rfl
  simp only [emission?, respelt.opcode, symbol, opcode]
  rfl

theorem emission_reordered :
    (m.emission? (reordered i j)).map Prod.fst = (m.emission? i).map Prod.fst := by
  have symbol : m.frames.symbol (reordered i j) 0 = m.frames.symbol i 0 := rfl
  unfold emission?
  rw [symbol]
  cases h : i.opcode <;> simp [reordered, h]

variable [Sink Out] [Sink Diag]

def Echo (k : Likeness Out Diag) (c : Channel) (s t : c.Endpoint Out Diag) (text other : String) :
    Prop :=
  (Sink.write t (Text.bytes other)).2 = (Sink.write s (Text.bytes text)).2 ∧
    k.sinks c (Sink.write s (Text.bytes text)).1 (Sink.write t (Text.bytes other)).1

def Echoes (k : Likeness Out Diag) (m n : Machine Out Diag)
    (here there : Option (Channel × String)) : Prop :=
  ∀ c text other, here = some (c, text) → there = some (c, other) →
    Echo k c (m.sink c) (n.sink c) text other

theorem emit_matches {text other : String} (alike : Alike k m n)
    (echo : Echo k c (m.sink c) (n.sink c) text other) :
    Matches k f ((proceed (emit c text)).run m) ((proceed (emit c other)).run n) := by
  obtain ⟨same, sinks⟩ := echo
  simp only [proceed, EStateM.run_bind, emit_run, same]
  cases (Sink.write (m.sink c) (Text.bytes text)).2 with
  | none => exact ⟨rfl, alike.withSink sinks⟩
  | some failure => exact ⟨rfl, alike.withSink sinks⟩

theorem step_matches (respelt : i.Respelt f j)
    (found : ∀ t u, k.labels t u → ∀ name, .label name ∈ i.arguments →
      u.find? (f name) = t.find? name)
    (alike : Alike k m n) (echoes : Echoes k m n (m.emission? i) (n.emission? j)) :
    Matches k f ((step i).run m) ((step j).run n) := by
  have channel := emission_reordered (i := i) (j := j) (m := m)
  rw [← emission_alike respelt alike] at channel
  cases emits : m.emission? i with
  | some emission =>
    obtain ⟨c, text⟩ := emission
    obtain ⟨⟨d, other⟩, emitsThere, same⟩ : ∃ e, n.emission? j = some e ∧ e.1 = c := by
      simpa [emits] using channel
    obtain rfl : d = c := same
    rw [step_emission emits, step_emission emitsThere]
    exact emit_matches alike (echoes _ _ _ emits emitsThere)
  | none =>
    have twins := twins_mirror respelt found
    cases silent : i.opcode.transfers with
    | false => exact step_of_twins twins respelt silent m n alike
    | true =>
      -- What writes fails before it gets to the sink, so only what reads is left.
      by_cases writes : i.opcode = .write ∨ i.opcode = .print
      · have writesThere : j.opcode = .write ∨ j.opcode = .print := by rwa [respelt.opcode]
        have silentThere : n.emission? j = none := by simpa [emits] using channel
        obtain ⟨fault, here, failed⟩ := step_unable emits writes
        obtain ⟨other, there, failedThere⟩ := step_unable silentThere writesThere
        rw [failed, failedThere]
        rw [alike.frames, respelt.symbol m.frames, here] at there
        exact ⟨(Except.error.inj there).symm, alike⟩
      · have reads : i.opcode = .read := by
          cases h : i.opcode <;> simp_all [Opcode.transfers, emission?]
        have mirrored : Mirrors k f (proceed (read i)) (proceed (read j)) := by
          apply twins.proceed
          apply twins.bind (twins.variableAt respelt 0)
          intro v
          apply twins.bind (twins.view fun _ => respelt.kindAt)
          intro kind
          exact twins.bind mirrors_readLine fun line => twins.assign v _
        simpa only [step, reads, respelt.opcode] using mirrored m n alike

/-! ## Programs -/

/-- Programs that machines can run in lockstep. -/
structure Parallel (k : Likeness Out Diag) (f : String → String) (p q : Program) : Prop where
  ended {index : Nat} : p.instructions[index]? = none → q.instructions[index]? = none
  respelt {index : Nat} {i : Instruction} : p.instructions[index]? = some i →
    ∃ j, q.instructions[index]? = some j ∧ i.Respelt f j
  found {t u : LabelTable} {i : Instruction} {name : String} : k.labels t u →
    i ∈ p.instructions → .label name ∈ i.arguments → u.find? (f name) = t.find? name
  recorded {t u : Option Statistics} {i j : Instruction} {index live : Nat} : k.statistics t u →
    p.instructions[index]? = some i → q.instructions[index]? = some j →
      k.statistics (t.map (·.record i.opcode i.order live))
        (u.map (·.record j.opcode j.order live))
  begun {labels : LabelTable} : p.labels = .ok labels →
    ∃ others, q.labels = .ok others ∧ k.labels labels others
  refused {repeated : DuplicateLabel} : p.labels = .error repeated →
    q.labels = .error ⟨f repeated.name, repeated.position⟩
  flushed {c : Channel} {s t : c.Endpoint Out Diag} : k.sinks c s t →
    (Sink.flush t).2 = (Sink.flush s).2 ∧ k.sinks c (Sink.flush s).1 (Sink.flush t).1

variable {p q : Program} {s t u : Moment Out Diag} {passed : List (Moment Out Diag)}

def respellResult (f : String → String) (result : Except RuntimeError Halt) :
    Except RuntimeError Halt :=
  result.mapError (·.respell f)

@[simp] theorem respellResult_id : respellResult id = id := by
  funext result
  cases result <;> simp [respellResult, Except.mapError]

theorem parallel_same {k : Likeness Out Diag} (labels : k.labels = Eq)
    (statistics : k.statistics = Eq)
    (flushed : ∀ (c : Channel) (s t : c.Endpoint Out Diag), k.sinks c s t →
      (Sink.flush t).2 = (Sink.flush s).2 ∧ k.sinks c (Sink.flush s).1 (Sink.flush t).1) :
    Parallel k id p p where
  ended := id
  respelt found := ⟨_, found, .refl _⟩
  found same _ _ := by
    rw [labels] at same
    rw [same, id]
  recorded same here there := by
    rw [statistics] at same ⊢
    rw [same, Option.some.inj (here.symm.trans there)]
  begun table := ⟨_, table, labels ▸ rfl⟩
  refused := id
  flushed := flushed _ _ _

inductive Moment.Alike (k : Likeness Out Diag) : Moment Out Diag → Moment Out Diag → Prop
  | idle {m n : Machine Out Diag} : Machine.Alike k m n → Moment.Alike k (.idle m) (.idle n)
  | running {m n : Machine Out Diag} : Machine.Alike k m n → Moment.Alike k (.running m) (.running n)

omit [Sink Out] [Sink Diag] in
theorem Moment.Alike.sink (alike : Moment.Alike k s u) (c : Channel) :
    k.sinks c (s.machine.sink c) (u.machine.sink c) := by
  cases alike with
  | idle alike => exact alike.sink c
  | running alike => exact alike.sink c

def Moment.Echoes (k : Likeness Out Diag) (p q : Program) (s u : Moment Out Diag) : Prop :=
  Machine.Echoes k s.machine u.machine (s.attempt? p) (u.attempt? q)

omit [Sink Out] [Sink Diag] in
theorem settle_alike {here there : EStateM.Result Fault (Machine Out Diag) (Option Halt)}
    (recorded : ∀ live, ∀ t u, k.statistics t u → k.statistics
      (t.map (·.record i.opcode i.order live)) (u.map (·.record j.opcode j.order live)))
    (matched : Matches k f here there) :
    Alike k (settle i here).1 (settle j there).1 ∧
      (settle j there).2 = (settle i here).2.map (respellResult f) := by
  cases here with
  | ok a m =>
    cases there with
    | ok b n =>
      obtain ⟨rfl, labels, statistics, output, diagnostics⟩ := matched
      refine ⟨.intro labels (recorded _ _ _ statistics) output diagnostics, ?_⟩
      cases b <;> rfl
    | error => cases matched
  | error fault m =>
    cases there with
    | ok => cases matched
    | error other n =>
      obtain ⟨rfl, alike⟩ := matched
      refine ⟨alike, ?_⟩
      cases alike
      rfl

omit [Sink Out] [Sink Diag] in
theorem attempt_same (alike : Moment.Alike k s u) : u.attempt? p = s.attempt? p := by
  cases alike with
  | idle => rfl
  | @running m n alike =>
    simp only [Moment.attempt?, alike.next]
    cases p.instructions[m.next]? with
    | none => rfl
    | some i => exact emission_alike (.refl i) alike.dispatched

theorem dispatch_matches (parallel : Parallel k f p q) (alike : Alike k m n)
    (echoes : (Moment.running m).Echoes k p q (.running n))
    (here : p.instructions[m.next]? = some i) :
    ∃ j, q.instructions[n.next]? = some j ∧ i.Respelt f j ∧
      Matches k f ((step i).run m.dispatched) ((step j).run n.dispatched) := by
  obtain ⟨j, there, respelt⟩ := parallel.respelt here
  rw [← alike.next] at there
  have emits : Echoes k m.dispatched n.dispatched (m.dispatched.emission? i)
      (n.dispatched.emission? j) := by
    intro c text other emits emitsThere
    rw [sink_dispatched, sink_dispatched]
    exact echoes c text other (Option.bind_eq_some_iff.2 ⟨i, here, emits⟩)
      (Option.bind_eq_some_iff.2 ⟨j, there, emitsThere⟩)
  have found (t u : LabelTable) (labels : k.labels t u) (name : String)
      (member : .label name ∈ i.arguments) : u.find? (f name) = t.find? name :=
    parallel.found labels (Array.mem_of_getElem? here) member
  exact ⟨j, there, respelt, step_matches respelt found alike.dispatched emits⟩

theorem advance_alike (parallel : Parallel k f p q) (alike : Alike k m n)
    (echoes : (Moment.running m).Echoes k p q (.running n)) :
    Alike k (advance p m).1 (advance q n).1 ∧
      (advance q n).2 = (advance p m).2.map (respellResult f) := by
  cases here : p.instructions[m.next]? with
  | none =>
    have there : q.instructions[n.next]? = none := alike.next ▸ parallel.ended here
    simp only [advance, here, there]
    exact ⟨alike, rfl⟩
  | some i =>
    obtain ⟨j, there, -, matched⟩ := dispatch_matches parallel alike echoes here
    rw [advance_eq_settle here, advance_eq_settle there]
    rw [alike.next] at there
    exact settle_alike (fun _ _ _ statistics => parallel.recorded statistics here there) matched

theorem executes_alike (parallel : Parallel k f p q) (alike : Moment.Alike k s u)
    (echoes : s.Echoes k p q u) : u.executes? q = s.executes? p := by
  cases alike with
  | idle => rfl
  | @running m n alike =>
    simp only [Moment.executes?]
    cases here : p.instructions[m.next]? with
    | none => rw [alike.next, parallel.ended here, Option.bind_none, Option.bind_none]
    | some i =>
      obtain ⟨j, there, respelt, matched⟩ := dispatch_matches parallel alike echoes here
      rw [there, Option.bind_some, Option.bind_some, respelt.opcode]
      cases first : (step i).run m.dispatched <;> cases second : (step j).run n.dispatched <;>
        simp_all [Matches]

theorem flush_alike (parallel : Parallel k f p q) (alike : Alike k m n)
    (result : Except RuntimeError Halt) :
    Alike k (m.flush result).1 (n.flush (respellResult f result)).1 ∧
      (n.flush (respellResult f result)).2 = respellResult f (m.flush result).2 := by
  cases alike with
  | @intro others statistics output diagnostics labels counted sameOutput sameDiagnostics =>
    have first : (Sink.flush output).2 = (Sink.flush m.output).2 ∧
      k.sinks .output (Sink.flush m.output).1 (Sink.flush output).1 := parallel.flushed sameOutput
    have second : (Sink.flush diagnostics).2 = (Sink.flush m.diagnostics).2 ∧
        k.sinks .diagnostics (Sink.flush m.diagnostics).1 (Sink.flush diagnostics).1 :=
      parallel.flushed sameDiagnostics
    rcases here : Sink.flush m.output with ⟨s, _⟩
    rcases there : Sink.flush output with ⟨t, failure⟩
    rcases hereToo : Sink.flush m.diagnostics with ⟨d, _⟩
    rcases thereToo : Sink.flush diagnostics with ⟨e, later⟩
    rw [here, there] at first
    rw [hereToo, thereToo] at second
    obtain ⟨rfl, first⟩ := first
    obtain ⟨rfl, second⟩ := second
    cases failure with
    | some text =>
      have alike : Alike k { m with output := s } _ :=
        .intro labels counted first sameDiagnostics
      simp only [flush, here, there]
      cases result <;> exact ⟨alike, rfl⟩
    | none =>
      have alike : Alike k { m with output := s, diagnostics := d } _ :=
        .intro labels counted first second
      simp only [flush, here, there, hereToo, thereToo]
      cases result <;> cases later <;> exact ⟨alike, rfl⟩

/-! ## Events -/

theorem Event.alike (parallel : Parallel k f p q) (event : Event p s t) (alike : Moment.Alike k s u)
    (echoes : s.Echoes k p q u) :
    ∃ v, Event q u v ∧ Moment.Alike k t v ∧
      u.returned? q = (s.returned? p).map (respellResult f) := by
  cases event with
  | @refused m repeated table =>
    obtain ⟨alike⟩ := alike
    have tableThere := parallel.refused table
    have flushed := flush_alike parallel alike
      (.error ⟨repeated.position, .duplicateLabel repeated.name⟩)
    refine ⟨_, .refused tableThere, .idle flushed.1, ?_⟩
    simp only [Moment.returned?, table, tableThere]
    rfl
  | begun table =>
    obtain ⟨alike⟩ := alike
    obtain ⟨others, tableThere, labels⟩ := parallel.begun table
    obtain ⟨-, statistics, output, diagnostics⟩ := alike
    refine ⟨_, .begun tableThere, .running (.intro labels statistics output diagnostics), ?_⟩
    simp [Moment.returned?, table, tableThere]
  | @continued m after next =>
    cases alike with
    | running alike =>
      obtain ⟨advanced, result⟩ := advance_alike parallel alike echoes
      rw [next] at advanced result
      refine ⟨_, .continued (Prod.ext rfl result), .running advanced, ?_⟩
      simp [Moment.returned?, next, result]
  | @ended m after result last =>
    cases alike with
    | running alike =>
      obtain ⟨advanced, same⟩ := advance_alike parallel alike echoes
      rw [last] at advanced same
      have flushed := flush_alike parallel advanced result
      refine ⟨_, .ended (Prod.ext rfl same), .idle flushed.1, ?_⟩
      simp [Moment.returned?, last, same, flushed.2]

theorem exists_event (s : Moment Out Diag) : ∃ t, Event p s t := by
  cases s with
  | idle m =>
    cases table : p.labels with
    | error repeated => exact ⟨_, .refused table⟩
    | ok labels => exact ⟨_, .begun table⟩
  | running m =>
    rcases next : advance p m with ⟨after, _ | result⟩
    · exact ⟨_, .continued next⟩
    · exact ⟨_, .ended next⟩

theorem exists_passage_of_length (s : Moment Out Diag) (length : Nat) :
    ∃ passed t, passed.length = length ∧ Passage p s passed t := by
  induction length with
  | zero => exact ⟨[], s, rfl, .start⟩
  | succ length ih =>
    obtain ⟨passed, t, long, passage⟩ := ih
    obtain ⟨u, event⟩ := exists_event (p := p) t
    exact ⟨passed ++ [t], u, by simp [long], passage.event event⟩

theorem Passage.alike (parallel : Parallel k f p q) (passage : Passage p s passed t)
    (alike : Moment.Alike k s u)
    (echoes : ∀ before r v, Passage p s before r → before ++ [r] <+: passed →
      Moment.Alike k r v → r.Echoes k p q v) :
    ∃ others v, Passage q u others v ∧ Moment.Alike k t v ∧
      List.Forall₂ (Moment.Alike k) passed others ∧
      others.filterMap (·.returned? q) = (passed.filterMap (·.returned? p)).map (respellResult f) := by
  induction passage with
  | start => exact ⟨[], u, .start, alike, .nil, rfl⟩
  | @event passed t t' earlier event ih =>
    obtain ⟨others, v, passage, same, moments, results⟩ := ih fun before r v along within =>
      echoes before r v along (within.trans (List.prefix_append _ _))
    obtain ⟨v', event', same', returned⟩ := event.alike parallel same
      (echoes passed t v earlier (List.prefix_refl _) same)
    refine ⟨_, v', passage.event event', same', List.rel_append moments (.cons same .nil), ?_⟩
    rw [List.filterMap_append, List.filterMap_append, results, returned_singleton,
      returned_singleton, returned, List.map_append]
    cases t.returned? p <;> rfl

end IppCode.Machine
