import IppCode.Proofs.Machine.Effect
import IppCode.Proofs.Machine.Failure
import IppCode.Proofs.Machine.History

/-!
# Locality

An instruction that succeeds changes only its own part of the state, and what a frame knows is kept
while the frame exists, wherever other instructions move it (`success_is_local`).
-/

namespace IppCode

/-- Where the frame at a place is after an instruction, if it still exists. The depth is that of the
local frames before it. -/
def Place.after (opcode : Opcode) (depth : Nat) : Place → Option Place
  | .global => some .global
  | .level position =>
    if opcode = .popFrame ∧ position + 1 = depth then some .temporary else some (.level position)
  | .temporary =>
    match opcode with
    | .createFrame | .popFrame => none
    | .pushFrame => some (.level depth)
    | _ => some .temporary

def Keeps (slot later : Option (Option Value)) : Prop :=
  ∀ held, slot = some held → ∃ held', later = some held' ∧ (held.isSome → held'.isSome)

theorem Keeps.refl (slot : Option (Option Value)) : Keeps slot slot :=
  fun held here => ⟨held, here, id⟩

theorem Keeps.trans {a b c : Option (Option Value)} (first : Keeps a b) (second : Keeps b c) :
    Keeps a c := by
  intro held here
  obtain ⟨between, there, kept⟩ := first held here
  obtain ⟨last, reached, stays⟩ := second between there
  exact ⟨last, reached, stays ∘ kept⟩

namespace Frames

variable {fs frames : Frames} {v : Variable} {place : Place} {name : String}

theorem Adds.keeps (adds : fs.Adds v frames) :
    Keeps (fs.slotAt? place name) (frames.slotAt? place name) := by
  by_cases here : (place, name) = (fs.place v.scope, v.name)
  · obtain ⟨rfl, rfl⟩ := Prod.mk.inj here
    rw [adds.fresh]
    exact nofun
  · rw [adds.others place name here]
    exact .refl _

theorem Sets.keeps (sets : fs.Sets v frames) :
    Keeps (fs.slotAt? place name) (frames.slotAt? place name) := by
  by_cases here : (place, name) = (fs.place v.scope, v.name)
  · obtain ⟨rfl, rfl⟩ := Prod.mk.inj here
    obtain ⟨x, set⟩ := sets.set
    exact fun _ _ => ⟨some x, set, fun _ => rfl⟩
  · rw [sets.others place name here]
    exact .refl _

theorem keeps_of_at? {last : Place} (same : ∀ f, fs.at? place = some f → frames.at? last = some f) :
    Keeps (fs.slotAt? place name) (frames.slotAt? last name) := by
  intro held found
  obtain ⟨f, here, slot⟩ := Option.bind_eq_some_iff.1 found
  exact ⟨held, Option.bind_eq_some_iff.2 ⟨f, same f here, slot⟩, id⟩

theorem at?_push {f g : Frame} {last : Place}
    (moves : place.after .pushFrame fs.locals.length = some last) (staged : fs.temporary = some f)
    (found : fs.at? place = some g) :
    Frames.at? { fs with locals := f :: fs.locals, temporary := none } last = some g := by
  cases place with
  | global =>
    cases moves
    exact found
  | level depth =>
    have deep : depth < fs.locals.length := by
      simpa using (List.getElem?_eq_some_iff.1 found).1
    simp only [Place.after, reduceCtorEq, false_and, if_false, Option.some.injEq] at moves
    subst moves
    rw [at?, getElem?_reverse_cons, if_neg (Nat.ne_of_lt deep)]
    exact found
  | temporary =>
    cases moves
    rw [at?, getElem?_reverse_cons, if_pos rfl]
    exact staged.symm.trans found

theorem at?_pop {f g : Frame} {outer : List Frame} {last : Place}
    (moves : place.after .popFrame fs.locals.length = some last) (stack : fs.locals = f :: outer)
    (found : fs.at? place = some g) :
    Frames.at? { fs with locals := outer, temporary := some f } last = some g := by
  cases place with
  | global =>
    cases moves
    exact found
  | level depth =>
    rw [at?, stack, getElem?_reverse_cons] at found
    simp only [Place.after, stack, List.length_cons, true_and, Nat.add_right_cancel_iff] at moves
    by_cases top : depth = outer.length
    · rw [if_pos top] at found moves
      obtain rfl := Option.some.inj moves
      exact found
    · rw [if_neg top] at found moves
      obtain rfl := Option.some.inj moves
      exact found
  | temporary => cases moves

end Frames

theorem Place.after_of_fixed {place : Place} {opcode : Opcode} {depth : Nat}
    (create : opcode ≠ .createFrame) (push : opcode ≠ .pushFrame) (pop : opcode ≠ .popFrame) :
    place.after opcode depth = some place := by
  cases place with
  | global => rfl
  | level => rw [Place.after, if_neg fun popped => pop popped.1]
  | temporary => cases opcode <;> first | rfl | contradiction

theorem Instruction.FramesEffect.keeps {i : Instruction} {fs frames : Frames} {place last : Place}
    {name : String} (effect : i.FramesEffect fs frames)
    (moves : place.after i.opcode fs.locals.length = some last) :
    Keeps (fs.slotAt? place name) (frames.slotAt? last name) := by
  unfold FramesEffect at effect
  split at effect
  · rename_i create
    rw [create] at moves
    subst effect
    refine Frames.keeps_of_at? fun f found => ?_
    cases place with
    | global =>
      cases moves
      exact found
    | level =>
      cases moves
      exact found
    | temporary => cases moves
  · rename_i push
    obtain ⟨f, staged, rfl⟩ := effect
    rw [push] at moves
    exact Frames.keeps_of_at? fun g => Frames.at?_push moves staged
  · rename_i pop
    obtain ⟨f, outer, stack, rfl⟩ := effect
    rw [pop] at moves
    exact Frames.keeps_of_at? fun g => Frames.at?_pop moves stack
  · rename_i declare
    obtain ⟨v, -, adds⟩ := effect
    have fixed : place.after i.opcode fs.locals.length = some place :=
      Place.after_of_fixed (by simp [declare]) (by simp [declare]) (by simp [declare])
    obtain rfl := Option.some.inj (fixed.symm.trans moves)
    exact adds.keeps
  · rename_i create push pop _
    rw [Place.after_of_fixed create push pop] at moves
    obtain rfl := Option.some.inj moves
    split at effect
    · obtain ⟨v, -, sets⟩ := effect
      exact sets.keeps
    · exact effect ▸ .refl _

namespace Machine

variable {Out Diag : Type} {m after : Machine Out Diag}

theorem Effect.sameShape {i : Instruction} (effect : Effect i m after)
    (create : i.opcode ≠ .createFrame) (push : i.opcode ≠ .pushFrame) (pop : i.opcode ≠ .popFrame) :
    m.frames.SameShape after.frames := by
  have frames := effect.frames
  unfold Instruction.FramesEffect at frames
  split at frames
  · contradiction
  · contradiction
  · contradiction
  · obtain ⟨v, -, adds⟩ := frames
    exact adds.toSameShape
  · split at frames
    · obtain ⟨v, -, sets⟩ := frames
      exact sets.toSameShape
    · rw [frames]
      exact ⟨rfl, rfl⟩

theorem Effect.of_declare {i : Instruction} (effect : Effect i m after)
    (declare : i.opcode = .declare) : after = { m with frames := after.frames } := by
  have stack := effect.stack
  have control := effect.control
  rw [declare] at stack control
  calc after
    _ = ⟨after.frames, after.stack, after.calls, after.next, after.current, after.labels,
          after.input, after.output, after.diagnostics, after.statistics, after.executed⟩ := rfl
    _ = { m with frames := after.frames } := by
      rw [show after.stack = m.stack from stack, control.1, control.2, effect.current,
        effect.labels, effect.statistics, effect.executed, effect.input (by simp [declare]),
        effect.output (by simp [declare]),
        effect.diagnostics (by simp [declare]) (by simp [declare])]

variable [Sink Out] [Sink Diag] {p : Program} {s t : Moment Out Diag}

def Moment.follow (p : Program) (s : Moment Out Diag) (place : Place) : Option Place :=
  match s.executes? p with
  | some opcode => place.after opcode s.machine.frames.locals.length
  | none => some place

/-- Events, and what they do to the place of a frame that lasts. -/
abbrev Lasting (p : Program) : Moment Out Diag × Place → Moment Out Diag × Place → Prop :=
  Relation.ReflTransGen fun before now =>
    Event p before.1 now.1 ∧ before.1.follow p before.2 = some now.2

theorem Turn.keeps {place last : Place} {name : String} (turn : Turn p s after)
    (moves : s.follow p place = some last) :
    Keeps (s.machine.frames.slotAt? place name) (after.frames.slotAt? last name) := by
  cases turn with
  | rested still =>
    rw [Moment.follow, still] at moves
    obtain rfl := Option.some.inj moves
    exact .refl _
  | executed found ok =>
    rw [Moment.follow, Moment.executes?, found, Option.bind_some, ok] at moves
    exact ((step_effect _ _).of_ok ok).frames.keeps moves
  | @failed m _ _ _ _ _ found error =>
    rw [Moment.follow, Moment.executes?, found, Option.bind_some, error] at moves
    obtain rfl := Option.some.inj moves
    have spared : _ = m.frames := ((step_spares _ _).of_error error).frames
    exact spared ▸ .refl _

theorem Lasting.keeps {place last : Place} {name : String}
    (lasting : Lasting p (s, place) (t, last)) :
    Keeps (s.machine.frames.slotAt? place name) (t.machine.frames.slotAt? last name) := by
  suffices general : ∀ now, Lasting p (s, place) now →
      Keeps (s.machine.frames.slotAt? place name) (now.1.machine.frames.slotAt? now.2 name) from
    general _ lasting
  intro now lasting
  induction lasting with
  | refl => exact .refl _
  | tail _ last ih => exact ih.trans (last.1.turn.keeps last.2)

/-- An instruction that succeeds has its effect on the frames, on the operand stack and on the call
stack, and no other. Over any run, a name that is declared in a frame stays declared there while the
frame lasts, and keeps having a value if it has one. -/
theorem success_is_local :
    (∀ (i : Instruction) (m after : Machine Out Diag) halt, (step i).run m = .ok halt after →
      (i.opcode ≠ .createFrame → i.opcode ≠ .pushFrame → i.opcode ≠ .popFrame →
        m.frames.SameShape after.frames) ∧
      i.FramesEffect m.frames after.frames ∧
      (i.opcode = .declare → after = { m with frames := after.frames }) ∧
      i.opcode.StackEffect m.stack after.stack ∧ ControlEffect i.opcode m after) ∧
    ∀ (p : Program) (s t : Moment Out Diag) place last, Lasting p (s, place) (t, last) →
      ∀ name held, s.machine.frames.slotAt? place name = some held →
        ∃ held', t.machine.frames.slotAt? last name = some held' ∧
          (held.isSome → held'.isSome) := by
  refine ⟨fun i m after halt ok => ?_, fun p s t place last lasting name => lasting.keeps⟩
  have effect := (step_effect i m).of_ok ok
  exact ⟨effect.sameShape, effect.frames, effect.of_declare, effect.stack, effect.control⟩

theorem success_is_local_moved :
    ∃ (p : Program) (i : Instruction) (pushed done : Machine Buffer Buffer)
      (s t : Moment Buffer Buffer),
      p = ⟨#[⟨.pushFrame, 1, []⟩, i, ⟨.popFrame, 3, []⟩]⟩ ∧
      i = ⟨.move, 2, [.var ⟨.innermost, "x"⟩, .literal ⟨.nil, "nil"⟩]⟩ ∧
      (step i).run pushed = .ok none done ∧
      (∃ v, i.arguments[0]? = some (.var v) ∧ pushed.frames.Sets v done.frames) ∧
      Lasting p (s, .temporary) (t, .temporary) ∧
      s.machine.frames.slotAt? .temporary "x" = some none ∧
      ∃ held, t.machine.frames.slotAt? .temporary "x" = some held := by
  let i : Instruction := ⟨.move, 2, [.var ⟨.innermost, "x"⟩, .literal ⟨.nil, "nil"⟩]⟩
  let p : Program := ⟨#[⟨.pushFrame, 1, []⟩, i, ⟨.popFrame, 3, []⟩]⟩
  let start : Machine Buffer Buffer :=
    { initial ⟨[], none⟩ Buffer.unbounded Buffer.unbounded false with
      frames := ⟨.empty, [], some ⟨[("x", none)]⟩⟩ }
  let pushed : Machine Buffer Buffer :=
    { start with frames := ⟨.empty, [⟨[("x", none)]⟩], none⟩, next := 1, executed := 1 }
  let moved : Machine Buffer Buffer :=
    { start with
      frames := ⟨.empty, [⟨[("x", some .nil)]⟩], none⟩, next := 2, current := 1, executed := 2 }
  let popped : Machine Buffer Buffer :=
    { start with
      frames := ⟨.empty, [], some ⟨[("x", some .nil)]⟩⟩, next := 3, current := 2, executed := 3 }
  have first : Event p (.running start) (.running pushed) := .continued rfl
  have second : Event p (.running pushed) (.running moved) := .continued rfl
  have third : Event p (.running moved) (.running popped) := .continued rfl
  have lasting : Lasting p (.running start, .temporary) (.running popped, .temporary) :=
    .tail (.tail (.single (b := (.running pushed, .level 0)) ⟨first, rfl⟩)
      (c := (.running moved, .level 0)) ⟨second, rfl⟩) ⟨third, rfl⟩
  let done : Machine Buffer Buffer := { pushed.dispatched with frames := moved.frames }
  have ok : (step i).run pushed.dispatched = .ok none done := rfl
  obtain ⟨-, effect, -⟩ := success_is_local.1 _ _ _ _ ok
  have sets := (Instruction.framesEffect_of_stores rfl).1 effect
  have declared : (Moment.running start).machine.frames.slotAt? .temporary "x" = some none := rfl
  obtain ⟨held, kept, -⟩ := success_is_local.2 _ _ _ _ _ lasting "x" none declared
  exact ⟨p, i, pushed.dispatched, done, .running start, .running popped, rfl, rfl, ok, sets,
    lasting, declared, held, kept⟩

end Machine

end IppCode
