import IppCode.Proofs.Machine.Lockstep
import Mathlib.Data.List.Infix

/-!
# Output

A sink that never fails holds what the successful instructions wrote on its channel, one after the
other. With a limit in its place the same happens until a write crosses the limit: that write fails,
and the sink holds the beginning of what would have been written from then on
(`output_within_limit`).
-/

namespace IppCode.Machine

variable {Out Diag : Type}

/-- Sinks that are related on the channel and the same on the other one. -/
inductive Apart (c : Channel) (R : c.Endpoint Out Diag → c.Endpoint Out Diag → Prop) :
    (d : Channel) → d.Endpoint Out Diag → d.Endpoint Out Diag → Prop
  | there {s t : c.Endpoint Out Diag} : R s t → Apart c R c s t
  | elsewhere {d : Channel} {s : d.Endpoint Out Diag} : d ≠ c → Apart c R d s s

namespace Apart

variable {c d : Channel} {R : c.Endpoint Out Diag → c.Endpoint Out Diag → Prop}

theorem related {s t : c.Endpoint Out Diag} (apart : Apart c R c s t) : R s t := by
  cases apart with
  | there related => exact related
  | elsewhere other => exact absurd rfl other

theorem same {s t : d.Endpoint Out Diag} (apart : Apart c R d s t) (other : d ≠ c) : t = s := by
  cases apart with
  | there => exact absurd rfl other
  | elsewhere => rfl

end Apart

namespace Moment

def withSink (s : Moment Out Diag) (c : Channel) (t : c.Endpoint Out Diag) : Moment Out Diag :=
  match s with
  | idle m => idle (m.withSink c t)
  | running m => running (m.withSink c t)

/-- The moments are the same but for the sink of the channel. -/
def SameBut (c : Channel) (s u : Moment Out Diag) : Prop := u = s.withSink c (u.machine.sink c)

end Moment

variable [Sink Out] [Sink Diag] {p : Program} {c : Channel} {k : Nat}
  {free : Sink.Bounded (c.Endpoint Out Diag) none}
  {tight : Sink.Bounded (c.Endpoint Out Diag) (some k)} {s t u : Moment Out Diag}
  {m n : Machine Out Diag} {passed others : List (Moment Out Diag)}

def sameHeld (free : Sink.Bounded (c.Endpoint Out Diag) none)
    (tight : Sink.Bounded (c.Endpoint Out Diag) (some k)) : Likeness Out Diag where
  labels := Eq
  statistics := Eq
  sinks := Apart c fun s t => ∃ bytes, free.Holds s bytes ∧ tight.Holds t bytes

theorem parallel_sameHeld : Parallel (sameHeld free tight) id p p := by
  apply parallel_same rfl rfl
  intro d s t same
  cases same with
  | there both =>
    obtain ⟨bytes, here, there⟩ := both
    refine ⟨?_, .there ⟨bytes, here.flush, there.flush⟩⟩
    rw [free.flush_eq_none here.sound, tight.flush_eq_none there.sound]
  | elsewhere other => exact ⟨rfl, .elsewhere other⟩

theorem Alike.eq_withSink (alike : Alike (sameHeld free tight) m n) :
    n = m.withSink c (n.sink c) := by
  obtain ⟨⟨⟩, ⟨⟩, output, diagnostics⟩ := alike
  cases c with
  | output =>
    cases diagnostics
    rfl
  | diagnostics =>
    cases output
    rfl

theorem Moment.Alike.sameBut (alike : Moment.Alike (sameHeld free tight) s u) :
    s.SameBut c u := by
  cases alike with
  | idle alike => exact congrArg Moment.idle alike.eq_withSink
  | running alike => exact congrArg Moment.running alike.eq_withSink

theorem sameHeld_echoes {bytes : List UInt8} (alike : Moment.Alike (sameHeld free tight) s u)
    (holds : free.Holds (s.machine.sink c) bytes)
    (fits : (bytes ++ c.bytes (s.attempt? p)).length ≤ k) :
    s.Echoes (sameHeld free tight) p p u := by
  intro d text other emits emitsThere
  rw [attempt_same alike, emits] at emitsThere
  cases emitsThere
  have sinks := alike.sink d
  by_cases channel : d = c
  · subst channel
    obtain ⟨held, here, there⟩ := Apart.related sinks
    obtain rfl : held = bytes := here.held.symm.trans holds.held
    have whole : Sink.within (some k) (held ++ Text.bytes text) = held ++ Text.bytes text := by
      rw [emits] at fits
      exact List.take_of_length_le (by simpa [Channel.bytes] using fits)
    constructor
    · have works := (free.write_eq_none here.sound (Text.bytes text)).2
      have fails := (tight.write_eq_none there.sound (Text.bytes text)).2
      rw [here.held] at works
      rw [there.held] at fails
      rw [works rfl, fails whole]
    · have kept := there.write (Text.bytes text)
      rw [whole] at kept
      exact .there ⟨_, here.write _, kept⟩
  · have same := Apart.same sinks channel
    rw [Echo, same]
    exact ⟨rfl, .elsewhere channel⟩

theorem Passage.sameHeld (passage : Passage p s passed t)
    (alike : Moment.Alike (sameHeld free tight) s u) (empty : free.Holds (s.machine.sink c) [])
    (fits : (written p c passed).length ≤ k) :
    ∃ others v, Passage p u others v ∧ Moment.Alike (IppCode.Machine.sameHeld free tight) t v ∧
      List.Forall₂ (Moment.Alike (IppCode.Machine.sameHeld free tight)) passed others ∧
      others.filterMap (·.returned? p) = passed.filterMap (·.returned? p) := by
  obtain ⟨others, v, along, same, moments, results⟩ :=
    passage.alike parallel_sameHeld alike fun before r v earlier within same => by
      have holds := earlier.holds_written empty
      apply sameHeld_echoes same holds
      rw [← bytes_emission holds.sound]
      have start : written p c (before ++ [r]) <+: written p c passed :=
        List.IsPrefix.flatMap within _
      simpa [written] using Nat.le_trans start.length_le fits
  exact ⟨others, v, along, same, moments, by simpa using results⟩

theorem written_snoc :
    written p c (passed ++ [s]) = written p c passed ++ c.bytes (s.emission? p) := by
  simp [written]

theorem Passage.holds_limited {v : Moment Out Diag} (passage : Passage p s passed t)
    (alike : Moment.Alike (IppCode.Machine.sameHeld free tight) s u)
    (empty : free.Holds (s.machine.sink c) []) (other : Passage p u others v)
    (long : others.length = passed.length) :
    tight.Holds (v.machine.sink c) ((written p c passed).take k) := by
  induction passage generalizing others v with
  | start =>
    cases other with
    | start =>
      obtain ⟨bytes, here, there⟩ := Apart.related (alike.sink c)
      obtain rfl : bytes = [] := here.held.symm.trans empty.held
      simpa [written] using there
    | event => simp at long
  | @event passed t _ earlier event ih =>
    cases other with
    | start => simp at long
    | @event others t' _ along last =>
      have long : others.length = passed.length := by simpa using long
      have held := last.holds (ih along long)
      rw [written_snoc]
      -- A full sink takes no more. Until then the other passage went through the same moments.
      rcases Nat.lt_or_ge k (written p c passed).length with full | fits
      · have before : ((written p c passed).take k).length = k :=
          List.length_take_of_le (Nat.le_of_lt full)
        rw [Sink.within, List.take_append_of_le_length (Nat.le_of_eq before.symm),
          List.take_take, Nat.min_self] at held
        rw [List.take_append_of_le_length (Nat.le_of_lt full)]
        exact held
      · obtain ⟨others', v', along', same, moments, -⟩ := earlier.sameHeld alike empty fits
        obtain ⟨rfl, rfl⟩ := along.unique along' (moments.length_eq.symm.trans long.symm)
        have holds := earlier.holds_written empty
        rw [attempt_same same, ← bytes_emission holds.sound, List.take_of_length_le fits] at held
        exact held

theorem Moment.Alike.overflows {bytes : List UInt8} (alike : Moment.Alike (sameHeld free tight) s u)
    (holds : free.Holds (s.machine.sink c) bytes) (fits : bytes.length ≤ k)
    (crosses : k < (bytes ++ c.bytes (s.emission? p)).length) :
    ∃ m i failure, u = .running m ∧ p.instructions[m.next]? = some i ∧ i.opcode ∈ c.writers ∧
      u.returned? p = some (.error ⟨m.next + 1, .io failure⟩) := by
  rw [bytes_emission holds.sound, ← attempt_same alike] at crosses
  have nonempty : c.bytes (u.attempt? p) ≠ [] := by
    intro nothing
    rw [nothing, List.append_nil] at crosses
    exact absurd fits (Nat.not_le_of_lt crosses)
  obtain ⟨text, emits⟩ := Channel.eq_some_of_bytes nonempty
  cases u with
  | idle => cases emits
  | running n =>
    have tooLong : k < (bytes ++ Text.bytes text).length := by
      rw [emits] at crosses
      simpa [Channel.bytes] using crosses
    obtain ⟨held, here, there⟩ := Apart.related (alike.sink c)
    obtain rfl : held = bytes := here.held.symm.trans holds.held
    have fails : (Sink.write (n.dispatched.sink c) (Text.bytes text)).2 ≠ none := by
      rw [sink_dispatched]
      intro works
      have whole := (tight.write_eq_none there.sound _).1 works
      rw [there.held, Sink.within, List.take_eq_self_iff] at whole
      exact absurd whole (Nat.not_le_of_lt tooLong)
    obtain ⟨failure, failed⟩ := Option.ne_none_iff_exists'.1 fails
    obtain ⟨i, found, emits⟩ := Option.bind_eq_some_iff.1 emits
    have position (s : c.Endpoint Out Diag) : (n.dispatched.withSink c s).current = n.next := by
      cases c <;> rfl
    have run : (step i).run n.dispatched = .error (.io failure) (n.dispatched.withSink c
        (Sink.write (n.dispatched.sink c) (Text.bytes text)).1) := by
      rw [step_emission emits, proceed, EStateM.run_bind, emit_run, failed]
    have advanced : (advance p n).2 = some (.error ⟨n.next + 1, .io failure⟩) := by
      rw [advance_eq_settle found, run, settle, position]
    refine ⟨n, i, failure, rfl, found, emission_writer emits, ?_⟩
    simp only [Moment.returned?, advanced, Option.map_some, flush_error]

/-- The sink of a channel holds what successful instructions wrote there. Under a limit it holds the
beginning of that. All moments are the same until an instruction crosses the limit, and that
instruction fails. -/
theorem output_within_limit (p : Program) (c : Channel) (start : Machine Out Diag)
    (free : Sink.Bounded (c.Endpoint Out Diag) none) (empty : free.Holds (start.sink c) []) :
    (∀ passed s, Passage p (.idle start) passed s →
      free.held (s.machine.sink c) = written p c passed) ∧
    ∀ k (tight : Sink.Bounded (c.Endpoint Out Diag) (some k)) small, tight.Holds small [] →
      ∀ passed s, Passage p (.idle start) passed s →
      (∃ passed' s', passed'.length = passed.length ∧
        Passage p (.idle (start.withSink c small)) passed' s') ∧
      ∀ passed' s', passed'.length = passed.length →
        Passage p (.idle (start.withSink c small)) passed' s' →
        tight.held (s'.machine.sink c) = (written p c passed).take k ∧
        ((written p c passed).length ≤ k →
          s.SameBut c s' ∧ List.Forall₂ (Moment.SameBut c) passed passed' ∧
          passed'.filterMap (·.returned? p) = passed.filterMap (·.returned? p) ∧
          (k < (written p c (passed ++ [s])).length →
            ∃ m i failure, s' = .running m ∧ p.instructions[m.next]? = some i ∧
              i.opcode ∈ c.writers ∧
              s'.returned? p = some (.error ⟨m.next + 1, .io failure⟩) ∧
              (RuntimeError.mk (m.next + 1) (.io failure)).status.code = 99)) := by
  refine ⟨fun passed s passage => (passage.holds_written empty).held, ?_⟩
  intro k tight small room passed s passage
  have alike : Moment.Alike (sameHeld free tight) (.idle start)
      (.idle (start.withSink c small)) := by
    have same : ∃ bytes, free.Holds (start.sink c) bytes ∧ tight.Holds small bytes :=
      ⟨[], empty, room⟩
    cases c with
    | output => exact .idle (.intro rfl rfl (.there same) (.elsewhere (by simp)))
    | diagnostics => exact .idle (.intro rfl rfl (.elsewhere (by simp)) (.there same))
  refine ⟨exists_passage_of_length _ _, fun passed' s' long other => ?_⟩
  refine ⟨(passage.holds_limited alike empty other long).held, fun fits => ?_⟩
  obtain ⟨others, v, along, same, moments, results⟩ := passage.sameHeld alike empty fits
  obtain ⟨rfl, rfl⟩ := other.unique along (moments.length_eq.symm.trans long.symm)
  refine ⟨same.sameBut, moments.imp fun _ _ => Moment.Alike.sameBut, results, fun crosses => ?_⟩
  rw [written_snoc] at crosses
  obtain ⟨m, i, failure, running, found, writes, returned⟩ :=
    same.overflows (passage.holds_written empty) fits crosses
  exact ⟨m, i, failure, running, found, writes, returned, rfl⟩

theorem output_within_limit_cut :
    ∃ (p : Program) (passed : List (Moment Buffer Buffer)) (m : Machine Buffer Buffer)
      (failure : String),
      p = ⟨#[⟨.write, 1, [.literal ⟨.string, "ab"⟩]⟩, ⟨.write, 2, [.literal ⟨.string, "cd"⟩]⟩]⟩ ∧
      Passage p (.idle (initial ⟨[], none⟩ ⟨[], some 3, none⟩ Buffer.unbounded true)) passed
        (.running m) ∧
      m.output.bytes = [97, 98] ∧
      (Moment.running m).returned? p = some (.error ⟨2, .io failure⟩) ∧
      ∀ s, Event p (.running m) s → s.machine.output.bytes = [97, 98, 99] := by
  let p : Program :=
    ⟨#[⟨.write, 1, [.literal ⟨.string, "ab"⟩]⟩, ⟨.write, 2, [.literal ⟨.string, "cd"⟩]⟩]⟩
  let start : Machine Buffer Buffer :=
    initial ⟨[], none⟩ Buffer.unbounded Buffer.unbounded true
  obtain ⟨passed, m, t, passage, last, position, two, four⟩ :
      ∃ (passed : List (Moment Buffer Buffer)) (m : Machine Buffer Buffer) (t : _),
        Passage p (.idle start) passed (.running m) ∧ Event p (.running m) t ∧ m.next = 1 ∧
        written p .output passed = [97, 98] ∧
        written p .output (passed ++ [.running m]) = [97, 98, 99, 100] :=
    ⟨_, _, _, .event (.event .start (.begun rfl)) (.continued rfl), .continued rfl, rfl, rfl, rfl⟩
  have empty : (Buffer.bounded none).Holds start.output [] := ⟨⟨rfl, by simp, rfl⟩, rfl⟩
  have room : (Buffer.bounded (some 3)).Holds ⟨[], some 3, none⟩ [] :=
    ⟨⟨rfl, by simp, rfl⟩, rfl⟩
  have limited := (output_within_limit p .output start (Buffer.bounded none) empty).2 3
    (Buffer.bounded (some 3)) ⟨[], some 3, none⟩ room
  obtain ⟨⟨passed', s', long, other⟩, along⟩ := limited _ _ passage
  obtain ⟨held, same⟩ := along _ _ long other
  obtain ⟨unchanged, -, -, crosses⟩ := same (by rw [two]; decide)
  obtain ⟨m', i, failure, rfl, -, -, returned, -⟩ := crosses (by rw [four]; decide)
  have next : m'.next = 1 := by
    rw [Moment.running.inj unchanged, ← position]
    rfl
  rw [next] at returned
  rw [two] at held
  refine ⟨p, passed', m', failure, rfl, other, held, returned, fun s event => ?_⟩
  have cut := (limited _ _ (passage.event last)).2 _ _ (by simp [long]) (other.event event)
  rw [four] at cut
  exact cut.1

end IppCode.Machine
