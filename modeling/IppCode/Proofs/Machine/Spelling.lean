import IppCode.Proofs.Labels
import IppCode.Proofs.Machine.Lockstep
import Mathlib.Data.Set.Function

/-!
# Orders and spellings

Programs that differ only in the declared orders and in how labels are spelt run in lockstep,
whether statistics are collected or not (`spelling_irrelevant`). Labels are only ever compared, so
an injective change of spelling keeps every comparison; orders only reach the statistics and the
text of breakpoints.
-/

namespace IppCode

def Program.labelNames (p : Program) : Set String :=
  {name | ∃ i ∈ p.instructions, .label name ∈ i.arguments}

/-- Programs that differ only in orders and in an injective respelling of labels. -/
structure Program.Respelt (f : String → String) (p q : Program) : Prop where
  instructions : List.Forall₂ (Instruction.Respelt f) p.instructions.toList q.instructions.toList
  injective : Set.InjOn f p.labelNames

variable {f : String → String} {p q : Program}

theorem Instruction.Respelt.declaredLabel {i j : Instruction} (respelt : i.Respelt f j) :
    j.declaredLabel? = i.declaredLabel?.map f := by
  unfold declaredLabel?
  rw [respelt.opcode, respelt.arguments]
  cases i.opcode with
  | label =>
    cases i.arguments with
    | nil => rfl
    | cons a rest => cases a <;> rfl
  | _ => rfl

namespace LabelTable

def Respelt (f : String → String) (names : Set String) (t u : LabelTable) : Prop :=
  ∀ name ∈ names, u.find? (f name) = t.find? name

def BuildsRespelt (f : String → String) (names : Set String) :
    Except DuplicateLabel LabelTable → Except DuplicateLabel LabelTable → Prop
  | .ok t, .ok u => Respelt f names t u
  | .error repeated, .error other => other = ⟨f repeated.name, repeated.position⟩
  | _, _ => False

variable {names : Set String} {t u : LabelTable} {position : Nat}

theorem Respelt.cons {name : String} (respelt : Respelt f names t u) (injective : Set.InjOn f names)
    (member : name ∈ names) :
    Respelt f names ⟨(name, position) :: t.entries⟩ ⟨(f name, position) :: u.entries⟩ := by
  intro other among
  simp only [find?_cons, injective.eq_iff among member, respelt other among]

theorem extend_respelt {here there : List Instruction} (injective : Set.InjOn f names)
    (instructions : List.Forall₂ (Instruction.Respelt f) here there)
    (among : ∀ i ∈ here, ∀ name, .label name ∈ i.arguments → name ∈ names)
    (respelt : Respelt f names t u) :
    BuildsRespelt f names (t.extend position here) (u.extend position there) := by
  induction instructions generalizing t u position with
  | nil => exact respelt
  | @cons i j here there first _ ih =>
    have others : ∀ i ∈ here, ∀ name, .label name ∈ i.arguments → name ∈ names :=
      fun i member => among i (List.mem_cons_of_mem _ member)
    rw [extend, extend, first.declaredLabel]
    cases declared : i.declaredLabel? with
    | none => exact ih others respelt
    | some name =>
      have member : name ∈ names :=
        among i List.mem_cons_self name (Instruction.mem_of_declaredLabel declared)
      simp only [Option.map_some, respelt name member]
      split
      · rfl
      · exact ih others (respelt.cons injective member)

end LabelTable

namespace Machine

theorem forall₂_getElem? {α β : Type} {R : α → β → Prop} {xs : List α} {ys : List β}
    (related : List.Forall₂ R xs ys) (index : Nat) :
    (xs[index]? = none ∧ ys[index]? = none) ∨
      ∃ x y, xs[index]? = some x ∧ ys[index]? = some y ∧ R x y := by
  induction related generalizing index with
  | nil => exact .inl ⟨rfl, rfl⟩
  | cons first _ ih =>
    cases index with
    | zero => exact .inr ⟨_, _, rfl, rfl, first⟩
    | succ index => exact ih index

variable {Out Diag : Type}

theorem dump_order (m : Machine Out Diag) : ∃ before after : String, ∀ order : UInt32,
    String.join ((m.dump order).map (· ++ "\n")) = before ++ toString order ++ after := by
  refine ⟨"BREAK at instruction " ++ toString (m.current + 1) ++ " (order ",
    "), " ++ toString m.executed ++ " executed" ++ "\n" ++
      String.join (((m.dump 0).drop 1).map (· ++ "\n")), fun order => ?_⟩
  show String.join ((_ :: (m.dump 0).drop 1).map _) = _
  rw [List.map_cons, String.join_cons]
  simp only [String.append_assoc]
  rfl

variable [Sink Out] [Sink Diag] {names : Set String} {free : Sink.Bounded Diag none}
  {s u : Moment Out Diag} {m n : Machine Out Diag}

/-- Labels are found under their respelt names, the output is the same, and the diagnostics are
never refused. Statistics do not matter. -/
def sameButNames (f : String → String) (names : Set String) (free : Sink.Bounded Diag none) :
    Likeness Out Diag where
  labels := LabelTable.Respelt f names
  statistics _ _ := True
  sinks
    | .output => Eq
    | .diagnostics => fun s t => free.sound s ∧ free.sound t

theorem parallel_respelt (respelt : p.Respelt f q) :
    Parallel (sameButNames f p.labelNames free : Likeness Out Diag) f p q := by
  have instructions (index : Nat) := forall₂_getElem? respelt.instructions index
  have tables : LabelTable.BuildsRespelt f p.labelNames p.labels q.labels :=
    LabelTable.extend_respelt respelt.injective respelt.instructions
      (fun i member name label => ⟨i, Array.mem_toList_iff.1 member, label⟩) fun _ _ => rfl
  constructor
  · intro index ended
    rcases instructions index with ⟨-, other⟩ | ⟨i, j, found, -⟩
    · simpa using other
    · simp_all
  · intro index i found
    rcases instructions index with ⟨ended, -⟩ | ⟨i', j, here, there, same⟩
    · simp_all
    · rw [Array.getElem?_toList] at here there
      obtain rfl := Option.some.inj (found.symm.trans here)
      exact ⟨j, there, same⟩
  · intro t u i name same member label
    exact same name ⟨i, member, label⟩
  · exact fun _ _ _ => trivial
  · intro labels table
    rw [table] at tables
    cases other : q.labels with
    | ok others => exact ⟨others, rfl, by rwa [other] at tables⟩
    | error => simp [other, LabelTable.BuildsRespelt] at tables
  · intro repeated table
    rw [table] at tables
    cases other : q.labels with
    | ok => simp [other, LabelTable.BuildsRespelt] at tables
    | error =>
      rw [other] at tables
      exact congrArg _ tables
  · intro c s t same
    cases c with
    | output =>
      obtain rfl : s = t := same
      exact ⟨rfl, rfl⟩
    | diagnostics =>
      obtain ⟨here, there⟩ := same
      refine ⟨?_, free.sound_flush here, free.sound_flush there⟩
      exact (free.flush_eq_none there).trans (free.flush_eq_none here).symm

def SameEmission (p q : Program) (s u : Moment Out Diag) : Prop :=
  u.emission? q = s.emission? p ∨
    ∃ m n i j before after, s = .running m ∧ u = .running n ∧
      p.instructions[m.next]? = some i ∧ q.instructions[n.next]? = some j ∧
      i.opcode = .dump ∧ j.opcode = .dump ∧
      s.emission? p = some (.diagnostics, before ++ toString i.order ++ after) ∧
      u.emission? q = some (.diagnostics, before ++ toString j.order ++ after)

omit [Sink Out] [Sink Diag] in
theorem emission_reordered_of_ne {i j : Instruction} (other : i.opcode ≠ .dump) :
    m.emission? (reordered i j) = m.emission? i := by
  have symbol : m.frames.symbol (reordered i j) 0 = m.frames.symbol i 0 := rfl
  unfold emission?
  rw [symbol]
  cases h : i.opcode <;> simp_all [reordered]

theorem attempt_respelt (respelt : p.Respelt f q)
    (alike : Moment.Alike (sameButNames f p.labelNames free) s u) :
    u.attempt? q = s.attempt? p ∨
      ∃ m n i j before after, s = .running m ∧ u = .running n ∧
        p.instructions[m.next]? = some i ∧ q.instructions[n.next]? = some j ∧
        i.opcode = .dump ∧ j.opcode = .dump ∧
        s.attempt? p = some (.diagnostics, before ++ toString i.order ++ after) ∧
        u.attempt? q = some (.diagnostics, before ++ toString j.order ++ after) := by
  cases alike with
  | idle => exact .inl rfl
  | @running m n alike =>
    have parallel : Parallel (sameButNames f p.labelNames free : Likeness Out Diag) f p q :=
      parallel_respelt respelt
    cases here : p.instructions[m.next]? with
    | none =>
      have there : q.instructions[n.next]? = none := alike.next ▸ parallel.ended here
      exact .inl (by simp only [Moment.attempt?, here, there, Option.bind_none])
    | some i =>
      obtain ⟨j, there, same⟩ := parallel.respelt here
      rw [← alike.next] at there
      have emits := emission_alike same alike.dispatched
      by_cases dump : i.opcode = .dump
      · obtain ⟨before, after, texts⟩ := dump_order m.dispatched
        refine .inr ⟨m, n, i, j, before, after, rfl, rfl, here, there, dump,
          same.opcode.trans dump, ?_, ?_⟩
        · simp only [Moment.attempt?, here, Option.bind_some, emission?, dump, texts]
        · simp only [Moment.attempt?, there, Option.bind_some, emits]
          simp only [emission?, reordered, dump, texts]
      · rw [emission_reordered_of_ne dump] at emits
        exact .inl (by simp only [Moment.attempt?, here, there, Option.bind_some, emits])

theorem respelt_echoes (respelt : p.Respelt f q)
    (alike : Moment.Alike (sameButNames f p.labelNames free) s u) :
    s.Echoes (sameButNames f p.labelNames free) p q u := by
  intro c text other emits emitsThere
  have sinks := alike.sink c
  cases c with
  | diagnostics =>
    obtain ⟨here, there⟩ := sinks
    refine ⟨?_, free.sound_write here _, free.sound_write there _⟩
    exact ((free.write_eq_none there _).2 rfl).trans ((free.write_eq_none here _).2 rfl).symm
  | output =>
    rcases attempt_respelt respelt alike with same | ⟨_, _, _, _, _, _, _, _, _, _, _, _, dumps, _⟩
    · rw [same, emits] at emitsThere
      cases emitsThere
      have same : s.machine.sink .output = u.machine.sink .output := sinks
      rw [Echo, same]
      exact ⟨rfl, rfl⟩
    · cases emits.symm.trans dumps

theorem emission_respelt (respelt : p.Respelt f q)
    (alike : Moment.Alike (sameButNames f p.labelNames free) s u) : SameEmission p q s u := by
  have executes := executes_alike (parallel_respelt respelt) alike (respelt_echoes respelt alike)
  unfold SameEmission Moment.emission?
  rw [executes]
  split
  · exact attempt_respelt respelt alike
  · exact .inl rfl

/-- Neither orders nor spellings nor the collection of statistics change what a run does. -/
theorem spelling_irrelevant (f : String → String) (p q : Program) (respelt : p.Respelt f q)
    (input : Input) (output : Out) (diagnostics others : Diag) (counting counted : Bool)
    (free : Sink.Bounded Diag none) (empty : free.Holds diagnostics [])
    (emptyToo : free.Holds others []) (passed : List (Moment Out Diag)) (s : Moment Out Diag)
    (passage : Passage p (.idle (initial input output diagnostics counting)) passed s) :
    (∀ e : RuntimeError, (e.respell f).position = e.position ∧ (e.respell f).status = e.status ∧
      (e.fault.label? = none → (e.respell f).message = e.message)) ∧
    (∃ passed' s', passed'.length = passed.length ∧
      Passage q (.idle (initial input output others counted)) passed' s') ∧
    ∀ passed' s', passed'.length = passed.length →
      Passage q (.idle (initial input output others counted)) passed' s' →
      s.Alike (sameButNames f p.labelNames free) s' ∧
      List.Forall₂ (Moment.Alike (sameButNames f p.labelNames free)) passed passed' ∧
      passed'.filterMap (·.returned? q) =
        (passed.filterMap (·.returned? p)).map (respellResult f) ∧
      free.held s.machine.diagnostics = written p .diagnostics passed ∧
      free.held s'.machine.diagnostics = written q .diagnostics passed' ∧
      List.Forall₂ (SameEmission p q) passed passed' := by
  have alike : Moment.Alike (sameButNames f p.labelNames free)
      (.idle (initial input output diagnostics counting))
      (.idle (initial input output others counted)) :=
    .idle (.intro (fun _ _ => rfl) trivial rfl ⟨empty.sound, emptyToo.sound⟩)
  refine ⟨fun e => ⟨rfl, e.respell_status, e.respell_message⟩, exists_passage_of_length _ _,
    fun passed' s' long other => ?_⟩
  obtain ⟨matched, t, along, same, moments, results⟩ :=
    passage.alike (parallel_respelt respelt) alike fun _ _ _ _ _ => respelt_echoes respelt
  obtain ⟨rfl, rfl⟩ := other.unique along (moments.length_eq.symm.trans long.symm)
  have here : free.Holds s.machine.diagnostics _ := passage.holds_written (c := .diagnostics) empty
  have there : free.Holds t.machine.diagnostics _ := other.holds_written (c := .diagnostics) emptyToo
  exact ⟨same, moments, results, here.held, there.held,
    moments.imp fun _ _ alike => emission_respelt respelt alike⟩

theorem spelling_irrelevant_undeclared :
    ∃ (p q : Program) (passed passed' : List (Moment Buffer Buffer)) (s s' : Moment Buffer Buffer),
      p = ⟨#[⟨.label, 1, [.label "a"]⟩, ⟨.jump, 2, [.label "b"]⟩]⟩ ∧
      q = ⟨#[⟨.label, 30, [.label "La"]⟩, ⟨.jump, 7, [.label "Lb"]⟩]⟩ ∧
      Passage p (.idle (initial ⟨[], none⟩ Buffer.unbounded Buffer.unbounded true)) passed s ∧
      Passage q (.idle (initial ⟨[], none⟩ Buffer.unbounded Buffer.unbounded false)) passed' s' ∧
      passed.filterMap (·.returned? p) = [.error ⟨2, .undefinedLabel "b"⟩] ∧
      passed'.filterMap (·.returned? q) = [.error ⟨2, .undefinedLabel "Lb"⟩] ∧
      s'.machine.executed = s.machine.executed := by
  let p : Program := ⟨#[⟨.label, 1, [.label "a"]⟩, ⟨.jump, 2, [.label "b"]⟩]⟩
  let q : Program := ⟨#[⟨.label, 30, [.label "La"]⟩, ⟨.jump, 7, [.label "Lb"]⟩]⟩
  have respelt : p.Respelt ("L" ++ ·) q :=
    ⟨.cons ⟨rfl, rfl⟩ (.cons ⟨rfl, rfl⟩ .nil), fun _ _ _ _ same => (String.append_right_inj "L").1 same⟩
  obtain ⟨passed, s, passage, results⟩ :
      ∃ (passed : List (Moment Buffer Buffer)) (s : Moment Buffer Buffer),
        Passage p (.idle (initial ⟨[], none⟩ Buffer.unbounded Buffer.unbounded true)) passed s ∧
        passed.filterMap (·.returned? p) = [.error ⟨2, .undefinedLabel "b"⟩] :=
    ⟨_, _, .event (.event (.event .start (.begun rfl)) (.continued rfl)) (.ended rfl), rfl⟩
  have empty : (Buffer.bounded none).Holds Buffer.unbounded [] := ⟨⟨rfl, by simp, rfl⟩, rfl⟩
  obtain ⟨-, ⟨passed', s', long, other⟩, along⟩ := spelling_irrelevant ("L" ++ ·) p q respelt
    ⟨[], none⟩ Buffer.unbounded Buffer.unbounded Buffer.unbounded true false (Buffer.bounded none)
    empty empty passed s passage
  obtain ⟨alike, -, respeltResults, -⟩ := along _ _ long other
  refine ⟨p, q, passed, passed', s, s', rfl, rfl, passage, other, results, ?_, ?_⟩
  · rw [respeltResults, results]
    rfl
  · cases alike with
    | idle alike =>
      cases alike
      rfl
    | running alike =>
      cases alike
      rfl

end Machine

end IppCode
