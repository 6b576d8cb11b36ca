import IppCode.Proofs.Machine.Effect
import IppCode.Proofs.Machine.Failure
import IppCode.Proofs.Machine.History
import Mathlib.Data.List.TakeDrop

/-!
# Emissions

What instructions write, on which of the two channels, and what sinks hold of it. A sink that keeps
everything up to a limit holds the beginning of what it was given; one without a limit never fails,
so it holds what the successful instructions wrote (`Passage.holds_written`).
-/

namespace IppCode

variable {Out Diag : Type}

inductive Channel where
  | output
  | diagnostics
deriving DecidableEq

namespace Channel

abbrev Endpoint (Out Diag : Type) : Channel → Type
  | output => Out
  | diagnostics => Diag

instance [Sink Out] [Sink Diag] : (c : Channel) → Sink (c.Endpoint Out Diag)
  | output => inferInstanceAs (Sink Out)
  | diagnostics => inferInstanceAs (Sink Diag)

def writers : Channel → List Opcode
  | output => [.write]
  | diagnostics => [.print, .dump]

def bytes (c : Channel) : Option (Channel × String) → List UInt8
  | some (other, text) => if other = c then Text.bytes text else []
  | none => []

theorem eq_some_of_bytes {c : Channel} {emission : Option (Channel × String)}
    (nonempty : c.bytes emission ≠ []) : ∃ text, emission = some (c, text) := by
  unfold bytes at nonempty
  split at nonempty
  · split at nonempty
    · rename_i text same
      exact ⟨text, by rw [same]⟩
    · exact absurd rfl nonempty
  · exact absurd rfl nonempty

end Channel

namespace Sink

def within : Option Nat → List UInt8 → List UInt8
  | none, bytes => bytes
  | some k, bytes => bytes.take k

/-- Sinks that keep what is written up to a limit. A write fails just if it crosses the limit. -/
structure Bounded (σ : Type) [Sink σ] (limit : Option Nat) where
  sound : σ → Prop
  held : σ → List UInt8
  fits {s : σ} : sound s → within limit (held s) = held s
  sound_write {s : σ} : sound s → ∀ bytes, sound (write s bytes).1
  held_write {s : σ} : sound s → ∀ bytes, held (write s bytes).1 = within limit (held s ++ bytes)
  write_eq_none {s : σ} : sound s → ∀ bytes,
    (write s bytes).2 = none ↔ within limit (held s ++ bytes) = held s ++ bytes
  sound_flush {s : σ} : sound s → sound (flush s).1
  held_flush {s : σ} : sound s → held (flush s).1 = held s
  flush_eq_none {s : σ} : sound s → (flush s).2 = none

namespace Bounded

variable {σ : Type} [Sink σ] {limit : Option Nat}

structure Holds (b : Bounded σ limit) (s : σ) (bytes : List UInt8) : Prop where
  sound : b.sound s
  held : b.held s = bytes

variable {b : Bounded σ limit} {s : σ} {bytes : List UInt8}

theorem Holds.fits (holds : b.Holds s bytes) : within limit bytes = bytes :=
  holds.held ▸ b.fits holds.sound

theorem Holds.unwritten (holds : b.Holds s bytes) : b.Holds s (within limit (bytes ++ [])) := by
  rw [List.append_nil, holds.fits]
  exact holds

theorem Holds.write (holds : b.Holds s bytes) (chunk : List UInt8) :
    b.Holds (Sink.write s chunk).1 (within limit (bytes ++ chunk)) :=
  ⟨b.sound_write holds.sound chunk, holds.held ▸ b.held_write holds.sound chunk⟩

theorem Holds.flush (holds : b.Holds s bytes) : b.Holds (Sink.flush s).1 bytes :=
  ⟨b.sound_flush holds.sound, (b.held_flush holds.sound).trans holds.held⟩

end Bounded

end Sink

def Buffer.bounded (limit : Option Nat) : Sink.Bounded Buffer limit where
  sound b := b.room = limit.map (· - b.kept.length) ∧ (∀ k ∈ limit, b.kept.length ≤ k) ∧
    b.flushFailure = none
  held := bytes
  fits := by
    rintro b ⟨-, small, -⟩
    cases limit with
    | none => rfl
    | some k => exact List.take_of_length_le (by simpa [bytes] using small k rfl)
  sound_write := by
    rintro b ⟨room, small, flushes⟩ chunk
    cases limit with
    | none => simp_all [Sink.write, write, keep]
    | some k =>
      have fits : b.kept.length ≤ k := small k rfl
      simp only [Sink.write, write, room, Option.map_some]
      split <;> simp [keep, flushes, room] <;> omega
  held_write := by
    rintro b ⟨room, small, -⟩ chunk
    cases limit with
    | none => simp [Sink.write, write, room, keep, bytes, Sink.within]
    | some k =>
      have fits : b.kept.length ≤ k := small k rfl
      have start : b.kept.reverse.take k = b.kept.reverse :=
        List.take_of_length_le (by simpa using fits)
      simp only [Sink.write, write, room, Option.map_some]
      split
      · rename_i enough
        have all : chunk.take (k - b.kept.length) = chunk := List.take_of_length_le enough
        simp [keep, bytes, Sink.within, List.take_append, start, all]
      · simp [keep, bytes, Sink.within, List.take_append, start]
  write_eq_none := by
    rintro b ⟨room, small, -⟩ chunk
    cases limit with
    | none => simp [Sink.write, write, room, Sink.within]
    | some k =>
      have fits : b.kept.length ≤ k := small k rfl
      have enough : Sink.within (some k) (b.bytes ++ chunk) = b.bytes ++ chunk ↔
          chunk.length ≤ k - b.kept.length := by
        rw [Sink.within, List.take_eq_self_iff, List.length_append, bytes, List.length_reverse]
        omega
      simp only [Sink.write, write, room, Option.map_some, enough]
      split <;> simp_all
  sound_flush := id
  held_flush _ := rfl
  flush_eq_none sound := sound.2.2

def Buffer.unlimited : (c : Channel) → Sink.Bounded (c.Endpoint Buffer Buffer) none
  | .output => Buffer.bounded none
  | .diagnostics => Buffer.bounded none

namespace Machine

def sink (m : Machine Out Diag) : (c : Channel) → c.Endpoint Out Diag
  | .output => m.output
  | .diagnostics => m.diagnostics

def withSink (m : Machine Out Diag) : (c : Channel) → c.Endpoint Out Diag → Machine Out Diag
  | .output, output => { m with output }
  | .diagnostics, diagnostics => { m with diagnostics }

def emission? (m : Machine Out Diag) (i : Instruction) : Option (Channel × String) :=
  match i.opcode with
  | .write => (m.frames.symbol i 0).toOption.map fun x => (.output, x.display)
  | .print => (m.frames.symbol i 0).toOption.map fun x => (.diagnostics, x.display ++ "\n")
  | .dump => some (.diagnostics, String.join ((m.dump i.order).map (· ++ "\n")))
  | _ => none

theorem emission_writer {m : Machine Out Diag} {i : Instruction} {c : Channel} {text : String}
    (emits : m.emission? i = some (c, text)) : i.opcode ∈ c.writers := by
  unfold emission? at emits
  split at emits
  · obtain ⟨x, -, same⟩ := Option.map_eq_some_iff.1 emits
    cases same
    simp [Channel.writers, *]
  · obtain ⟨x, -, same⟩ := Option.map_eq_some_iff.1 emits
    cases same
    simp [Channel.writers, *]
  · cases emits
    simp [Channel.writers, *]
  · cases emits

variable [Sink Out] [Sink Diag] {p : Program} {m after : Machine Out Diag} {i : Instruction}
  {c : Channel} {text : String} {s t : Moment Out Diag} {limit : Option Nat}

def emit (c : Channel) (text : String) : Action Out Diag Unit := fun m =>
  let written := Sink.write (m.sink c) (Text.bytes text)
  match written.2 with
  | none => .ok () (m.withSink c written.1)
  | some failure => .error (.io failure) (m.withSink c written.1)

theorem emit_output : (emit .output text : Action Out Diag Unit) = writeOutput text := by
  funext m
  rcases result : Sink.write m.output (Text.bytes text) with ⟨s, failure⟩
  have written : Sink.write (m.sink .output) (Text.bytes text) = (s, failure) := result
  simp only [emit, writeOutput, written, result]
  cases failure <;> rfl

theorem emit_diagnostics :
    (emit .diagnostics text : Action Out Diag Unit) = writeDiagnostics text := by
  funext m
  rcases result : Sink.write m.diagnostics (Text.bytes text) with ⟨s, failure⟩
  have written : Sink.write (m.sink .diagnostics) (Text.bytes text) = (s, failure) := result
  simp only [emit, writeDiagnostics, written, result]
  cases failure <;> rfl

theorem step_emission (emits : m.emission? i = some (c, text)) :
    (step i).run m = (proceed (emit c text)).run m := by
  have value {x : Except Fault Value} {f : Value → Channel × String}
      (found : x.toOption.map f = some (c, text)) : ∃ a, x = .ok a ∧ f a = (c, text) := by
    cases x with
    | ok a => exact ⟨a, rfl, by simpa [Except.toOption] using found⟩
    | error fault => cases found
  unfold emission? at emits
  cases h : i.opcode with
  | write =>
    rw [h] at emits
    obtain ⟨x, found, same⟩ := value emits
    cases same
    simp only [step, h, write, emit_output, proceed, bind_assoc, EStateM.run_bind, run_view, found]
  | print =>
    rw [h] at emits
    obtain ⟨x, found, same⟩ := value emits
    cases same
    simp only [step, h, print, emit_diagnostics, proceed, bind_assoc, EStateM.run_bind, run_view,
      found]
  | dump =>
    rw [h] at emits
    cases emits
    simp only [step, h, breakpoint, emit_diagnostics, proceed, bind_assoc, EStateM.run_bind,
      EStateM.run_get]
  | _ => simp [h] at emits

theorem emit_run :
    (emit c text : Action Out Diag Unit).run m =
      match (Sink.write (m.sink c) (Text.bytes text)).2 with
      | none => .ok () (m.withSink c (Sink.write (m.sink c) (Text.bytes text)).1)
      | some failure =>
        .error (.io failure) (m.withSink c (Sink.write (m.sink c) (Text.bytes text)).1) := rfl

omit [Sink Out] [Sink Diag] in
@[simp] theorem sink_withSink (s : c.Endpoint Out Diag) : (m.withSink c s).sink c = s := by
  cases c <;> rfl

omit [Sink Out] [Sink Diag] in
theorem sink_withSink_of_ne {d : Channel} (s : c.Endpoint Out Diag) (other : d ≠ c) :
    (m.withSink c s).sink d = m.sink d := by
  cases c <;> cases d <;> first | rfl | cases other rfl

theorem step_unable (silent : m.emission? i = none) (writes : i.opcode = .write ∨ i.opcode = .print) :
    ∃ fault, m.frames.symbol i 0 = .error fault ∧ (step i).run m = .error fault m := by
  cases found : m.frames.symbol i 0 with
  | ok x => rcases writes with h | h <;> simp [emission?, h, found, Except.toOption] at silent
  | error fault =>
    refine ⟨fault, rfl, ?_⟩
    rcases writes with h | h
    · simp only [step, h, write, proceed, bind_assoc, EStateM.run_bind, run_view, found]
    · simp only [step, h, print, proceed, bind_assoc, EStateM.run_bind, run_view, found]

theorem step_silent (silent : m.emission? i = none) (c : Channel) :
    Ensures (step i) m (fun _ after => after.sink c = m.sink c)
      (fun _ after => after.sink c = m.sink c) := by
  by_cases writes : i.opcode = .write ∨ i.opcode = .print
  · obtain ⟨fault, -, failed⟩ := step_unable silent writes
    simp [Ensures, failed]
  · obtain ⟨unwritten, unprinted⟩ := not_or.1 writes
    have undumped : i.opcode ≠ .dump := fun h => by simp [emission?, h] at silent
    unfold Ensures
    cases result : (step i).run m with
    | ok a after =>
      have effect : Effect i m after := (step_effect i m).of_ok result
      cases c with
      | output => exact effect.output unwritten
      | diagnostics => exact effect.diagnostics unprinted undumped
    | error fault after =>
      have spared : Spared i m after := (step_spares i m).of_error result
      cases c with
      | output => exact spared.output unwritten
      | diagnostics => exact spared.diagnostics unprinted undumped

/-- What the next instruction writes, if it gets to that. -/
def Moment.attempt? (p : Program) : Moment Out Diag → Option (Channel × String)
  | idle _ => none
  | running m => p.instructions[m.next]?.bind m.dispatched.emission?

def Moment.emission? (p : Program) (s : Moment Out Diag) : Option (Channel × String) :=
  if (s.executes? p).isSome then s.attempt? p else none

/-- The bytes for a channel of all emissions. -/
def written (p : Program) (c : Channel) (passed : List (Moment Out Diag)) : List UInt8 :=
  passed.flatMap fun s => c.bytes (s.emission? p)

omit [Sink Out] [Sink Diag] in
theorem settle_sink (result : EStateM.Result Fault (Machine Out Diag) (Option Halt)) :
    (settle i result).1.sink c =
      match result with
      | .ok _ m => m.sink c
      | .error _ m => m.sink c := by
  cases result <;> cases c <;> rfl

theorem step_sink (i : Instruction) (m : Machine Out Diag) (c : Channel) :
    (settle i ((step i).run m)).1.sink c =
      match m.emission? i with
      | some (d, text) =>
        if d = c then (Sink.write (m.sink c) (Text.bytes text)).1 else m.sink c
      | none => m.sink c := by
  rw [settle_sink]
  cases emits : m.emission? i with
  | none =>
    have silent := step_silent emits c
    unfold Ensures at silent
    cases result : (step i).run m <;> simpa [result] using silent
  | some emission =>
    obtain ⟨d, text⟩ := emission
    rw [step_emission emits, proceed, EStateM.run_bind, emit_run]
    by_cases same : d = c
    · subst same
      cases (Sink.write (m.sink d) (Text.bytes text)).2 <;> simp
    · have other (s : d.Endpoint Out Diag) := sink_withSink_of_ne (m := m) s (Ne.symm same)
      cases (Sink.write (m.sink d) (Text.bytes text)).2 <;> simp [same, other]

omit [Sink Out] [Sink Diag] in
theorem sink_dispatched : m.dispatched.sink c = m.sink c := by
  cases c <;> rfl

theorem advance_holds {b : Sink.Bounded (c.Endpoint Out Diag) limit} {bytes : List UInt8}
    (holds : b.Holds (m.sink c) bytes) :
    b.Holds ((advance p m).1.sink c) (Sink.within limit
      (bytes ++ c.bytes (p.instructions[m.next]?.bind m.dispatched.emission?))) := by
  cases found : p.instructions[m.next]? with
  | none =>
    simp only [advance, found]
    exact holds.unwritten
  | some i =>
    rw [advance_eq_settle found, step_sink, Option.bind_some, sink_dispatched]
    cases emits : m.dispatched.emission? i with
    | none => exact holds.unwritten
    | some emission =>
      obtain ⟨d, text⟩ := emission
      simp only [Channel.bytes]
      split
      · exact holds.write _
      · exact holds.unwritten

theorem flush_holds {b : Sink.Bounded (c.Endpoint Out Diag) limit} {bytes : List UInt8}
    (holds : b.Holds (m.sink c) bytes) (result : Except RuntimeError Halt) :
    b.Holds ((m.flush result).1.sink c) bytes := by
  have flushed : (m.flush result).1.sink c = m.sink c ∨
      (m.flush result).1.sink c = (Sink.flush (m.sink c)).1 := by
    rcases first : Sink.flush m.output with ⟨output, _ | text⟩ <;>
      rcases second : Sink.flush m.diagnostics with ⟨diagnostics, _ | text⟩ <;>
        cases result <;> cases c <;> simp [flush, first, second, sink]
  rcases flushed with kept | flushed
  · exact kept ▸ holds
  · exact flushed ▸ holds.flush

theorem Event.holds {b : Sink.Bounded (c.Endpoint Out Diag) limit} {bytes : List UInt8}
    (event : Event p s t) (holds : b.Holds (s.machine.sink c) bytes) :
    b.Holds (t.machine.sink c) (Sink.within limit (bytes ++ c.bytes (s.attempt? p))) := by
  cases event with
  | refused => exact (flush_holds holds _).unwritten
  | @begun m labels =>
    have sink : ({ m with labels } : Machine Out Diag).sink c = m.sink c := by cases c <;> rfl
    exact sink.symm ▸ holds.unwritten
  | @continued m _ next =>
    have advanced : b.Holds ((advance p m).1.sink c) _ := advance_holds holds
    rw [next] at advanced
    exact advanced
  | @ended m _ _ last =>
    have advanced : b.Holds ((advance p m).1.sink c) _ := advance_holds holds
    rw [last] at advanced
    exact flush_holds advanced _

theorem bytes_emission {b : Sink.Bounded (c.Endpoint Out Diag) none}
    (sound : b.sound (s.machine.sink c)) :
    c.bytes (s.emission? p) = c.bytes (s.attempt? p) := by
  unfold Moment.emission?
  split
  · rfl
  · rename_i failed
    cases s with
    | idle m => rfl
    | running m =>
      cases emits : (Moment.running m).attempt? p with
      | none => rfl
      | some emission =>
        obtain ⟨d, text⟩ := emission
        obtain ⟨i, found, emits⟩ := Option.bind_eq_some_iff.1 emits
        suffices other : d ≠ c by simp [Channel.bytes, other]
        rintro rfl
        have writes : (Sink.write (m.dispatched.sink d) (Text.bytes text)).2 = none := by
          rw [sink_dispatched]
          exact (b.write_eq_none sound _).2 rfl
        apply failed
        rw [Moment.executes?, found, Option.bind_some, step_emission emits, proceed,
          EStateM.run_bind, emit_run, writes]
        rfl

theorem Passage.holds_written {b : Sink.Bounded (c.Endpoint Out Diag) none}
    {bytes : List UInt8} {passed : List (Moment Out Diag)} (passage : Passage p s passed t)
    (holds : b.Holds (s.machine.sink c) bytes) :
    b.Holds (t.machine.sink c) (bytes ++ written p c passed) := by
  induction passage with
  | start => simpa [written] using holds
  | @event passed t u _ event ih =>
    have held := event.holds ih
    rw [← bytes_emission ih.sound] at held
    simpa [written, Sink.within] using held

end Machine

end IppCode
