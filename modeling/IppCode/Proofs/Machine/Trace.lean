import IppCode.Proofs.Frames.Count
import IppCode.Proofs.Machine.Effect
import IppCode.Proofs.Machine.Failure
import IppCode.Proofs.Machine.History
import IppCode.Proofs.Machine.Parts
import IppCode.Proofs.Statistics
import Mathlib.Order.Bounds.Defs

/-!
# Traces

The trace of a passage lists the instructions that succeeded, each with the frames that it left. The
frames of every moment were left by the last instruction of the trace, so nothing that happens
between two instructions escapes the counters (`trace_counted`).
-/

namespace IppCode

structure Success where
  instruction : Instruction
  frames : Frames

def Success.sample (done : Success) : Sample :=
  ⟨done.instruction.opcode, done.instruction.order, done.frames.liveCount⟩

namespace Machine

variable {Out Diag : Type}

def KeepsFrames (I : Frames → Prop) {α : Type} (x : Action Out Diag α) : Prop :=
  ∀ m, I m.frames → Ensures x m (fun _ after => I after.frames) fun _ after => I after.frames

theorem KeepsFrames.reframe {I : Frames → Prop} {f : Frames → Except FrameError Frames}
    (kept : ∀ fs frames, I fs → f fs = .ok frames → I frames) :
    KeepsFrames I (reframe f : Action Out Diag Unit) := by
  intro m holds
  rw [ensures_reframe]
  exact ⟨fun frames => kept _ frames holds, fun _ _ => holds⟩

variable [Sink Out] [Sink Diag] {p : Program} {m after : Machine Out Diag}
  {s t : Moment Out Diag} {passed : List (Moment Out Diag)}

theorem parts_keepFrames {I : Frames → Prop} (kept : Frames.Kept I) :
    Parts fun α (x : Action Out Diag α) => KeepsFrames I x where
  pure _ _ holds := holds
  throw _ _ holds := holds
  bind first next m holds := by
    rw [ensures_bind]
    exact (first m holds).mono (fun a after => next a after) fun _ _ => id
  view _ m holds := by simp [holds]
  create := .reframe fun _ _ holds created => Except.ok.inj created ▸ kept.create holds
  pushFrame := .reframe fun _ _ => kept.push
  popFrame := .reframe fun _ _ => kept.pop
  declare _ := .reframe fun _ _ => kept.declare
  assign _ _ := .reframe fun _ _ => kept.write
  push _ _ holds := holds
  requireDepth _ _ m holds := ensures_requireDepth.2 ⟨fun _ => holds, fun _ => holds⟩
  takeTop _ m holds := ensures_takeTop.2 ⟨fun _ _ _ => holds, fun _ => holds⟩
  clear _ holds := holds
  resolve _ m holds := by simp [holds]
  goTo _ _ holds := holds
  call _ _ holds := holds
  ret m holds := by simp [holds]
  writeOutput _ m holds := by simp [holds]
  writeDiagnostics _ m holds := by simp [holds]
  breakpoint _ m holds := by simp [breakpoint, holds]

theorem step_keepsFrames {I : Frames → Prop} (kept : Frames.Kept I) (i : Instruction) :
    KeepsFrames I (step i : Action Out Diag (Option Halt)) := by
  have parts : Parts fun α (x : Action Out Diag α) => KeepsFrames I x := parts_keepFrames kept
  refine step_of_parts parts i fun _ => ?_
  refine parts.bind (parts.lift _) fun v => parts.bind (parts.lift _) fun kind => ?_
  refine parts.bind (fun m holds => ?_) fun line => parts.assign v _
  simp [holds]

theorem Turn.keepsFrames {I : Frames → Prop} (kept : Frames.Kept I) (turn : Turn p s after)
    (holds : I s.machine.frames) : I after.frames := by
  cases turn with
  | rested => exact holds
  | @executed m done i _ _ _ _ ok =>
    have left : I done.frames := (step_keepsFrames kept i m.dispatched holds).of_ok ok
    exact left
  | @failed m stopped i _ _ _ _ error =>
    have left : I stopped.frames := (step_keepsFrames kept i m.dispatched holds).of_error error
    exact left

theorem History.keepsFrames {I : Frames → Prop} (kept : Frames.Kept I) (history : History p s t)
    (holds : I s.machine.frames) : I t.machine.frames := by
  induction history with
  | refl => exact holds
  | tail _ event ih => exact event.turn.keepsFrames kept ih

def Moment.success? (p : Program) : Moment Out Diag → Option Success
  | idle _ => none
  | running m =>
    p.instructions[m.next]?.bind fun i =>
      match (step i).run m.dispatched with
      | .ok _ done => some ⟨i, done.frames⟩
      | .error _ _ => none

theorem Moment.executes?_eq :
    s.executes? p = (s.success? p).map (·.instruction.opcode) := by
  cases s with
  | idle => rfl
  | running m =>
    simp only [executes?, success?]
    cases p.instructions[m.next]? with
    | none => rfl
    | some i => cases h : (step i).run m.dispatched <;> simp [h]

def trace (p : Program) (passed : List (Moment Out Diag)) : List Success :=
  passed.filterMap (·.success? p)

theorem trace_snoc : trace p (passed ++ [s]) = trace p passed ++ (s.success? p).toList := by
  rw [trace, List.filterMap_append]
  cases h : s.success? p <;> simp [trace, h]

/-- What a machine has kept of a trace. -/
structure Counted (m : Machine Out Diag) (trace : List Success) : Prop where
  frames : m.frames = (trace.getLast?.map (·.frames)).getD .initial
  statistics : m.statistics = some (.recorded (trace.map (·.sample)))
  executed : m.executed = trace.length

theorem Turn.counted {trace : List Success} (turn : Turn p s after)
    (counted : Counted s.machine trace) : Counted after (trace ++ (s.success? p).toList) := by
  cases turn with
  | rested still =>
    rw [Moment.executes?_eq, Option.map_eq_none_iff] at still
    rw [still, Option.toList_none, List.append_nil]
    exact ⟨counted.frames, counted.statistics, counted.executed⟩
  | @executed m done i _ _ _ found ok =>
    have success : (Moment.running m).success? p = some ⟨i, done.frames⟩ := by
      rw [Moment.success?, found, Option.bind_some, ok]
    have same : SameBooks m.dispatched done := (step_books i _).of_ok ok
    have statistics : done.statistics = some (.recorded (trace.map (·.sample))) :=
      same.statistics.trans counted.statistics
    have executed : done.executed = trace.length := same.executed.trans counted.executed
    rw [success]
    constructor
    · simp [account]
    · simp [account, statistics, Statistics.recorded_snoc, Success.sample]
    · simp [account, executed]
  | @failed m stopped i _ _ _ found error =>
    have success : (Moment.running m).success? p = none := by
      rw [Moment.success?, found, Option.bind_some, error]
    have spared : Spared i m.dispatched stopped := (step_spares i _).of_error error
    rw [success, Option.toList_none, List.append_nil]
    exact ⟨spared.frames.trans counted.frames, spared.statistics.trans counted.statistics,
      spared.executed.trans counted.executed⟩

omit [Sink Out] [Sink Diag] in
theorem dump_eq_cons (m : Machine Out Diag) (order : UInt32) :
    ∃ lines, m.dump order =
      s!"BREAK at instruction {m.current + 1} (order {order}), {m.executed} executed" :: lines :=
  ⟨_, rfl⟩

section
variable {input : Input} {output : Out} {diagnostics : Diag}
  (passage : Passage p (.idle (initial input output diagnostics true)) passed s)
include passage

theorem Passage.counted : Counted s.machine (trace p passed) := by
  induction passage with
  | start => exact ⟨rfl, rfl, rfl⟩
  | event _ event ih =>
    rw [trace_snoc]
    exact event.turn.counted ih

theorem Passage.distinct (visited : t ∈ passed ++ [s]) : t.machine.frames.Distinct :=
  (passage.visits visited).keepsFrames Frames.kept_distinct Frames.distinct_initial

theorem Passage.frames_of_visited (visited : t ∈ passed ++ [s]) :
    t.machine.frames = .initial ∨ ∃ done ∈ trace p passed, t.machine.frames = done.frames := by
  have last {passed : List (Moment Out Diag)} {t : Moment Out Diag}
      (counted : Counted t.machine (trace p passed)) :
      t.machine.frames = .initial ∨ ∃ done ∈ trace p passed, t.machine.frames = done.frames := by
    rw [counted.frames]
    cases h : (trace p passed).getLast? with
    | none => exact .inl rfl
    | some done => exact .inr ⟨done, List.mem_of_getLast? h, rfl⟩
  induction passage with
  | start =>
    obtain rfl := List.mem_singleton.1 visited
    exact .inl rfl
  | event earlier event ih =>
    rcases List.mem_append.1 visited with before | now
    · refine (ih before).imp_right fun ⟨done, member, same⟩ => ⟨done, ?_, same⟩
      rw [trace_snoc]
      exact List.mem_append_left _ member
    · obtain rfl := List.mem_singleton.1 now
      exact last (earlier.event event).counted

theorem Passage.visited_of_trace {done : Success} (member : done ∈ trace p passed) :
    ∃ t ∈ passed ++ [s], t.machine.frames = done.frames := by
  induction passage with
  | start => cases member
  | @event _ before now earlier event ih =>
    rw [trace_snoc] at member
    rcases List.mem_append.1 member with old | new
    · obtain ⟨t, visited, same⟩ := ih old
      exact ⟨t, List.mem_append_left _ visited, same⟩
    · have success : before.success? p = some done := Option.mem_toList.1 new
      have counted := (earlier.event event).counted
      rw [trace_snoc, success] at counted
      exact ⟨now, by simp, by simpa using counted.frames⟩

theorem Passage.peak_isGreatest :
    IsGreatest {n | ∃ t ∈ passed ++ [s], n = t.machine.frames.declared.ncard}
      (((trace p passed).map (·.frames.declared.ncard)).max?.getD 0) := by
  have none_declared : Frames.initial.declared.ncard = 0 :=
    Frames.ncard_declared Frames.distinct_initial
  cases highest : ((trace p passed).map (·.frames.declared.ncard)).max? with
  | none =>
    have empty : trace p passed = [] := by simpa using highest
    refine ⟨⟨_, passage.start_mem, none_declared.symm⟩, ?_⟩
    rintro _ ⟨t, visited, rfl⟩
    rcases passage.frames_of_visited visited with first | ⟨done, member, -⟩
    · rw [first, none_declared, Option.getD_none]
    · simp [empty] at member
  | some n =>
    obtain ⟨attained, bound⟩ := List.max?_eq_some_iff.1 highest
    obtain ⟨done, member, rfl⟩ := List.mem_map.1 attained
    obtain ⟨t, visited, same⟩ := passage.visited_of_trace member
    refine ⟨⟨t, visited, by rw [same, Option.getD_some]⟩, ?_⟩
    rintro _ ⟨u, seen, rfl⟩
    rcases passage.frames_of_visited seen with first | ⟨other, among, equal⟩
    · rw [first, none_declared]
      exact Nat.zero_le _
    · rw [equal]
      exact bound _ (List.mem_map_of_mem among)

theorem Passage.live_eq {done : Success} (member : done ∈ trace p passed) :
    done.frames.declared.ncard = done.sample.live := by
  obtain ⟨t, visited, same⟩ := passage.visited_of_trace member
  exact Frames.ncard_declared (same ▸ passage.distinct visited)

theorem Passage.recorded_peak :
    (Statistics.recorded ((trace p passed).map (·.sample))).peak =
      ((trace p passed).map (·.frames.declared.ncard)).max?.getD 0 := by
  rw [Statistics.recorded_peak, List.map_map]
  exact congrArg (·.max?.getD 0) (List.map_congr_left fun done member =>
    (passage.live_eq member).symm)

end

theorem breakpoint_run {i : Instruction} (m : Machine Out Diag) (dump : i.opcode = .dump) :
    ∃ later : String, (step i).run m.dispatched = (proceed (writeDiagnostics
      (s!"BREAK at instruction {m.next + 1} (order {i.order}), {m.executed} executed" ++
        "\n" ++ later))).run m.dispatched := by
  obtain ⟨lines, dumped⟩ : ∃ lines, m.dispatched.dump i.order =
      s!"BREAK at instruction {m.next + 1} (order {i.order}), {m.executed} executed" :: lines :=
    dump_eq_cons m.dispatched i.order
  refine ⟨String.join (lines.map (· ++ "\n")), ?_⟩
  calc (step i).run m.dispatched
    _ = (proceed (breakpoint i)).run m.dispatched := by rw [step, dump]
    _ = (proceed (writeDiagnostics
          (String.join ((m.dispatched.dump i.order).map (· ++ "\n"))))).run m.dispatched := by
      simp only [proceed, breakpoint, bind_assoc, EStateM.run_bind, EStateM.run_get]
    _ = _ := by rw [dumped, List.map_cons, String.join_cons]

/-- The statistics describe the trace. They count its instructions and the hits of each, without
bookkeeping, and their peak is the highest number of declared variables of any moment. A breakpoint
tells how long the trace is. -/
theorem trace_counted (p : Program) (input : Input) (output : Out) (diagnostics : Diag) :
    (∀ results after, Session p (initial input output diagnostics true) results after →
      ∃ passed, Passage p (.idle (initial input output diagnostics true)) passed (.idle after) ∧
        passed.filterMap (·.returned? p) = results) ∧
    ∀ passed s, Passage p (.idle (initial input output diagnostics true)) passed s →
      (∃ stats, s.machine.statistics = some stats ∧
        stats.executed =
          (trace p passed).countP (fun done => !done.instruction.opcode.isBookkeeping) ∧
        stats.peak = ((trace p passed).map (·.frames.declared.ncard)).max?.getD 0 ∧
        IsGreatest {n | ∃ t ∈ passed ++ [s], n = t.machine.frames.declared.ncard} stats.peak ∧
        (stats.hits.map Prod.fst).Nodup ∧
        ∀ opcode order count, ((opcode, order), count) ∈ stats.hits ↔
          0 < count ∧ count = (trace p passed).countP fun done =>
            !done.instruction.opcode.isBookkeeping &&
              (done.instruction.opcode, done.instruction.order) = (opcode, order)) ∧
      s.machine.executed = (trace p passed).length ∧
      ∀ m i, s = .running m → p.instructions[m.next]? = some i → i.opcode = .dump →
        m.executed = (trace p passed).length ∧
        ∃ later : String, (step i).run m.dispatched = (proceed (writeDiagnostics
          (s!"BREAK at instruction {m.next + 1} (order {i.order}), {m.executed} executed" ++
            "\n" ++ later))).run m.dispatched := by
  refine ⟨fun results after session => session_iff.1 session, fun passed s passage => ?_⟩
  have counted := passage.counted
  refine ⟨⟨_, counted.statistics, ?_, ?_, ?_, ?_, ?_⟩, counted.executed, ?_⟩
  · rw [Statistics.recorded_executed, List.countP_map]
    rfl
  · rw [passage.recorded_peak]
  · rw [passage.recorded_peak]
    exact passage.peak_isGreatest
  · exact Statistics.nodup_hits_recorded
  · intro opcode order count
    rw [Statistics.mem_hits_recorded, List.countP_map]
    rfl
  · rintro m i rfl - dump
    exact ⟨counted.executed, breakpoint_run m dump⟩

theorem trace_counted_resumed :
    ∃ (p : Program) (after : Machine Buffer Buffer) (passed : List (Moment Buffer Buffer)),
      p = ⟨#[⟨.declare, 1, [.var ⟨.global, "x"⟩]⟩, ⟨.pop, 2, [.var ⟨.global, "x"⟩]⟩,
        ⟨.dump, 3, []⟩, ⟨.exit, 4, [.literal ⟨.int, "0"⟩]⟩]⟩ ∧
      Passage p (.idle (initial ⟨[], none⟩ Buffer.unbounded Buffer.unbounded true)) passed
        (.idle after) ∧
      passed.filterMap (·.returned? p) =
        [.error ⟨2, .stackUnderflow .pop 1 0⟩, .ok (.exit 0)] ∧
      after.statistics = some ⟨2, [((.declare, 1), 1), ((.exit, 4), 1)], 1⟩ ∧
      (trace p passed).countP (fun done => !done.instruction.opcode.isBookkeeping) = 2 ∧
      (trace p passed).length = 3 ∧
      IsGreatest {n | ∃ t ∈ passed ++ [.idle after], n = t.machine.frames.declared.ncard} 1 := by
  let p : Program := ⟨#[⟨.declare, 1, [.var ⟨.global, "x"⟩]⟩, ⟨.pop, 2, [.var ⟨.global, "x"⟩]⟩,
    ⟨.dump, 3, []⟩, ⟨.exit, 4, [.literal ⟨.int, "0"⟩]⟩]⟩
  let start : Machine Buffer Buffer :=
    initial ⟨[], none⟩ Buffer.unbounded Buffer.unbounded true
  obtain ⟨next, after, first, second, statistics, executed⟩ :
      ∃ next after, execute p 4 start = (next, some (.error ⟨2, .stackUnderflow .pop 1 0⟩)) ∧
        execute p 4 next = (after, some (.ok (.exit 0))) ∧
        after.statistics = some ⟨2, [((.declare, 1), 1), ((.exit, 4), 1)], 1⟩ ∧
        after.executed = 3 := ⟨_, _, rfl, rfl, rfl, rfl⟩
  have session : Session p start _ after := .call first (.call second .done)
  obtain ⟨passed, passage, returned⟩ :=
    (trace_counted p ⟨[], none⟩ Buffer.unbounded Buffer.unbounded).1 _ _ session
  obtain ⟨⟨stats, kept, counts, -, greatest, -⟩, length, -⟩ :=
    (trace_counted p ⟨[], none⟩ Buffer.unbounded Buffer.unbounded).2 _ _ passage
  obtain rfl := Option.some.inj (statistics.symm.trans kept)
  exact ⟨p, after, passed, rfl, passage, returned, statistics, counts.symm,
    length.symm.trans executed, greatest⟩

end Machine

end IppCode
