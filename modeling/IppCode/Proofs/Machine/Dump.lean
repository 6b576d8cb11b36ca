import IppCode.Machine.Step
import IppCode.Proofs.Frames.Display
import Mathlib.Data.List.TakeWhile

/-!
# The text of a breakpoint

What `BREAK` writes determines the state of the machine (`dump_determines`). No line feed occurs in
its lines, so that these are found again, and each line determines what it shows.
-/

namespace IppCode

open Text

variable {c mark : Char}

theorem toString_self (s : String) : toString s = s := rfl

theorem isDigit_of_mem_toString {n : Nat} (inside : c ∈ (toString n).toList) :
    c.isDigit = true := by
  rw [Nat.toString_eq_ofList_toDigits, String.toList_ofList] at inside
  exact isDigit_of_mem_toDigits inside

theorem toString_append_inj {m n : Nat} {rest rest' : List Char}
    (stop : ∀ c ∈ rest.head?, c.isDigit = false) (stop' : ∀ c ∈ rest'.head?, c.isDigit = false)
    (same : (toString m).toList ++ rest = (toString n).toList ++ rest') : m = n ∧ rest = rest' := by
  have digits (n : Nat) : ∀ c ∈ (toString n).toList, c.isDigit = true :=
    fun _ => isDigit_of_mem_toString
  have stops {rest : List Char} (stop : ∀ c ∈ rest.head?, c.isDigit = false) :
      rest.takeWhile Char.isDigit = [] := by
    cases rest with
    | nil => rfl
    | cons c rest => rw [List.takeWhile_cons_of_neg (by simp [stop c rfl])]
  have front := congrArg (List.takeWhile Char.isDigit) same
  rw [List.takeWhile_append_of_pos (digits m), List.takeWhile_append_of_pos (digits n),
    stops stop, stops stop', List.append_nil, List.append_nil] at front
  rw [front, List.append_right_inj] at same
  refine ⟨?_, same⟩
  have numbers := congrArg natural? front
  simp only [Nat.toString_eq_ofList_toDigits, String.toList_ofList, natural?_toDigits] at numbers
  exact Option.some.inj numbers

namespace Machine

variable {Out Diag Out' Diag' : Type} {m : Machine Out Diag} {n : Machine Out' Diag'}

theorem header_inj {j k order other executed past : Nat}
    (same : s!"BREAK at instruction {j} (order {order}), {executed} executed" =
      s!"BREAK at instruction {k} (order {other}), {past} executed") :
    j = k ∧ order = other ∧ executed = past := by
  have texts := congrArg String.toList same
  simp only [toString_self, String.toList_append, List.append_assoc] at texts
  obtain ⟨first, texts⟩ :=
    toString_append_inj (by simp) (by simp) (List.append_cancel_left texts)
  obtain ⟨second, texts⟩ :=
    toString_append_inj (by simp) (by simp) (List.append_cancel_left texts)
  obtain ⟨third, -⟩ := toString_append_inj (by simp) (by simp) (List.append_cancel_left texts)
  exact ⟨first, second, third⟩

structure IsItem (item : String) : Prop where
  nonempty : item ≠ ""
  high : ∀ c ∈ item.toList, 32 < c.toNat

theorem IsItem.not_mem {item : String} (proper : IsItem item) (low : mark.toNat ≤ 32) :
    mark ∉ item.toList := fun inside => absurd (proper.high mark inside) (by omega)

theorem isItem_typed (v : Value) : IsItem v.typed := by
  refine ⟨fun empty => ?_, fun c => Value.of_mem_typed⟩
  have texts := congrArg String.toList empty
  simp [Value.typed] at texts

theorem isItem_toString (k : Nat) : IsItem (toString k) := by
  refine ⟨fun empty => ?_, fun c inside => ?_⟩
  · have texts := congrArg String.toList empty
    simp at texts
  · have range := toNat_of_isDigit (isDigit_of_mem_toString inside)
    omega

theorem bracketed_inj {items others : List String} (proper : ∀ item ∈ items, IsItem item)
    (proper' : ∀ item ∈ others, IsItem item) (same : bracketed items = bracketed others) :
    items = others := by
  have clean {items : List String} (proper : ∀ item ∈ items, IsItem item) :
      ∀ part ∈ items.map String.toList, part ≠ [] ∧ ' ' ∉ part := by
    rw [List.forall_mem_map]
    exact fun item given => ⟨by simpa using (proper item given).nonempty,
      (proper item given).not_mem (by decide)⟩
  -- Items may hold commas but no spaces, so it is the space that ends one.
  have texts := congrArg String.toList same
  simp only [bracketed, String.toList_append, String.toList_intercalate] at texts
  have parts := intercalate_inj [','] (by decide) (clean proper) (clean proper')
    (List.append_cancel_left (List.append_cancel_right texts))
  exact (List.map_inj_right fun _ _ => String.toList_injective).1 parts

theorem feed_not_mem_bracketed {items : List String} (proper : ∀ item ∈ items, IsItem item) :
    '\n' ∉ (bracketed items).toList := by
  have between : '\n' ∉ (String.intercalate ", " items).toList := by
    intro feed
    rcases of_mem_toList_intercalate feed with separator | ⟨item, given, inside⟩
    · revert separator
      decide
    · exact (proper item given).not_mem (by decide) inside
  simp only [bracketed, String.toList_append, List.mem_append, between, or_false]
  decide

theorem stack_inj {stack other : List Value} (proper : ∀ v ∈ stack, v.Proper)
    (proper' : ∀ v ∈ other, v.Proper)
    (same : bracketed (stack.reverse.map Value.typed) = bracketed (other.reverse.map Value.typed)) :
    stack = other := by
  have items {stack : List Value} : ∀ item ∈ stack.reverse.map Value.typed, IsItem item :=
    List.forall_mem_map.2 fun v _ => isItem_typed v
  refine List.reverse_inj.1 (map_inj_of_mem (fun v listed w listed' => ?_)
    (bracketed_inj items items same))
  exact Value.typed_injective (proper v (List.mem_reverse.1 listed))
    (proper' w (List.mem_reverse.1 listed'))

theorem calls_inj {calls other : List Nat}
    (same : bracketed (calls.reverse.map toString) = bracketed (other.reverse.map toString)) :
    calls = other := by
  have items {calls : List Nat} : ∀ item ∈ calls.reverse.map toString, IsItem item :=
    List.forall_mem_map.2 fun k _ => isItem_toString k
  refine List.reverse_inj.1 (map_inj_of_mem (fun j _ k _ equal => ?_)
    (bracketed_inj items items same))
  have texts := congrArg (·.toList ++ []) equal
  exact (toString_append_inj (by simp) (by simp) texts).1

def temporaryText : Option Frame → String
  | some f => f.display
  | none => "(undefined)"

def localTexts (locals : List Frame) : List String :=
  if locals.isEmpty then ["LF: (undefined)"] else localLines locals

theorem dump_eq (m : Machine Out Diag) (order : UInt32) :
    m.dump order =
      s!"BREAK at instruction {m.current + 1} (order {order.toNat}), {m.executed} executed" ::
      s!"operand stack: {bracketed (m.stack.reverse.map Value.typed)}" ::
      s!"call stack: {bracketed (m.calls.reverse.map toString)}" ::
      s!"GF: {m.frames.global.display}" ::
      s!"TF: {temporaryText m.frames.temporary}" ::
      localTexts m.frames.locals := by
  unfold dump
  cases m.frames.temporary <;> rfl

theorem temporary_inj {f g : Option Frame} (legible : ∀ a ∈ f, a.Legible)
    (legible' : ∀ a ∈ g, a.Legible) (same : temporaryText f = temporaryText g) : f = g := by
  cases f with
  | none =>
    cases g with
    | none => rfl
    | some b => exact absurd same.symm b.display_ne_undefined
  | some a =>
    cases g with
    | none => exact absurd same a.display_ne_undefined
    | some b => rw [Frame.display_injective (legible a rfl) (legible' b rfl) same]

theorem localLines_inj {fs gs : List Frame} (legible : ∀ f ∈ fs, f.Legible)
    (legible' : ∀ f ∈ gs, f.Legible) (same : localLines fs = localLines gs) : fs = gs := by
  induction fs generalizing gs with
  | nil =>
    cases gs with
    | nil => rfl
    | cons g inner => cases same
  | cons f outer ih =>
    cases gs with
    | nil => cases same
    | cons g outer' =>
      obtain ⟨first, others⟩ := List.forall_mem_cons.1 legible
      obtain ⟨first', others'⟩ := List.forall_mem_cons.1 legible'
      obtain ⟨line, lines⟩ := List.cons.inj same
      -- The frames below are the same, hence as many, so the lines begin with the same depth.
      obtain rfl := ih others others' lines
      have texts := congrArg String.toList line
      simp only [String.toList_append, List.append_assoc] at texts
      have displays := List.append_cancel_left (List.append_cancel_left
        (List.append_cancel_left texts))
      rw [Frame.display_injective first first' (String.toList_injective displays)]

theorem localLines_ne {f : Frame} {outer : List Frame} :
    localLines (f :: outer) ≠ ["LF: (undefined)"] := by
  intro same
  have texts := congrArg String.toList (List.cons.inj same).1
  simp [toString_self, String.toList_append] at texts

theorem locals_inj {fs gs : List Frame} (legible : ∀ f ∈ fs, f.Legible)
    (legible' : ∀ f ∈ gs, f.Legible) (same : localTexts fs = localTexts gs) : fs = gs := by
  cases fs with
  | nil =>
    cases gs with
    | nil => rfl
    | cons g outer => exact absurd same.symm localLines_ne
  | cons f outer =>
    cases gs with
    | nil => exact absurd same localLines_ne
    | cons g outer' => exact localLines_inj legible legible' same

structure LegibleFrames (fs : Frames) : Prop where
  global : fs.global.Legible
  temporary : ∀ f ∈ fs.temporary, f.Legible
  locals : ∀ f ∈ fs.locals, f.Legible

/-- No NaN on the stack or in a variable, and legible names. -/
structure Legible (m : Machine Out Diag) : Prop where
  stack : ∀ v ∈ m.stack, v.Proper
  frames : LegibleFrames m.frames

def dumpText (m : Machine Out Diag) (order : UInt32) : String :=
  String.join ((m.dump order).map (· ++ "\n"))

theorem temporaryText_clean {f : Option Frame} (legible : ∀ a ∈ f, a.Legible) :
    '\n' ∉ (temporaryText f).toList := by
  cases f with
  | none => decide
  | some a => exact Frame.feed_not_mem_display (legible a rfl)

theorem localLines_clean {fs : List Frame} (legible : ∀ f ∈ fs, f.Legible) :
    ∀ line ∈ localLines fs, '\n' ∉ line.toList := by
  induction fs with
  | nil => simp [localLines]
  | cons f outer ih =>
    obtain ⟨first, others⟩ := List.forall_mem_cons.1 legible
    have depth : '\n' ∉ (toString outer.length).toList :=
      (isItem_toString outer.length).not_mem (by decide)
    have display := Frame.feed_not_mem_display first
    refine List.forall_mem_cons.2 ⟨?_, ih others⟩
    simp only [toString_self, String.toList_append, List.mem_append, depth, display, or_false]
    decide

theorem feed_not_mem_dump {order : UInt32} (legible : m.Legible) :
    ∀ line ∈ m.dump order, '\n' ∉ line.toList := by
  have number (k : Nat) : '\n' ∉ (toString k).toList := (isItem_toString k).not_mem (by decide)
  have values := feed_not_mem_bracketed (List.forall_mem_map.2
    fun v (_ : v ∈ m.stack.reverse) => isItem_typed v)
  have returns := feed_not_mem_bracketed (List.forall_mem_map.2
    fun k (_ : k ∈ m.calls.reverse) => isItem_toString k)
  have display := Frame.feed_not_mem_display legible.frames.global
  have temporary := temporaryText_clean legible.frames.temporary
  have locals : ∀ line ∈ localTexts m.frames.locals, '\n' ∉ line.toList := by
    unfold localTexts
    split
    · decide
    · exact localLines_clean legible.frames.locals
  rw [dump_eq]
  simp only [List.forall_mem_cons, toString_self, String.toList_append, List.mem_append, number,
    values, returns, display, temporary, or_false]
  exact ⟨by decide, by decide, by decide, by decide, by decide, locals⟩

theorem dump_eq_of_dumpText {order order' : UInt32} (legible : m.Legible) (legible' : n.Legible)
    (same : m.dumpText order = n.dumpText order') : m.dump order = n.dump order' := by
  have text (lines : List String) : (String.join (lines.map (· ++ "\n"))).toList =
      (lines.map String.toList).flatMap (· ++ ['\n']) := by
    rw [String.toList_join, List.flatMap_map, List.flatMap_map]
    simp
  have texts := congrArg (lines ·.toList) same
  simp only [dumpText, text] at texts
  rw [lines_flatMap (List.forall_mem_map.2 (feed_not_mem_dump legible)),
    lines_flatMap (List.forall_mem_map.2 (feed_not_mem_dump legible'))] at texts
  exact (List.map_inj_right fun _ _ => String.toList_injective).1 texts

/-- What `BREAK` writes determines its place, the number of executed instructions, the stacks and
the frames. Every identifier is legible, and values and frames are determined by their texts. -/
theorem dump_determines :
    (∀ [Sink Out] [Sink Diag] (m : Machine Out Diag) (i : Instruction), i.opcode = .dump →
      (step i).run m = (proceed (writeDiagnostics (m.dumpText i.order))).run m) ∧
    (∀ (m : Machine Out Diag) (n : Machine Out' Diag') (order order' : UInt32),
      m.Legible → n.Legible → m.dumpText order = n.dumpText order' →
      m.current = n.current ∧ order = order' ∧ m.executed = n.executed ∧ m.stack = n.stack ∧
        m.calls = n.calls ∧ m.frames = n.frames) ∧
    (∀ name, isIdentifier name = true → LegibleName name) ∧
    (∀ v w : Value, v.Proper → w.Proper → v.typed = w.typed → v = w) ∧
    ∀ f g : Frame, f.Legible → g.Legible → f.display = g.display → f = g := by
  refine ⟨?_, ?_, fun _ => .of_isIdentifier, fun _ _ => Value.typed_injective,
    fun _ _ => Frame.display_injective⟩
  · intro _ _ m i dump
    simp only [step, dump, breakpoint, proceed, bind_assoc, EStateM.run_bind, EStateM.run_get,
      dumpText]
  · intro m n order order' legible legible' same
    have lines := dump_eq_of_dumpText legible legible' same
    rw [dump_eq, dump_eq] at lines
    obtain ⟨header, lines⟩ := List.cons.inj lines
    obtain ⟨values, lines⟩ := List.cons.inj lines
    obtain ⟨returns, lines⟩ := List.cons.inj lines
    obtain ⟨globals, lines⟩ := List.cons.inj lines
    obtain ⟨temporaries, locals⟩ := List.cons.inj lines
    obtain ⟨position, orders, executed⟩ := header_inj header
    have behind {start a b : String} (same : start ++ a = start ++ b) : a = b :=
      (String.append_right_inj start).1 same
    have «global» := Frame.display_injective legible.frames.global legible'.frames.global
      (behind globals)
    have temporary := temporary_inj legible.frames.temporary legible'.frames.temporary
      (behind temporaries)
    have locals := locals_inj legible.frames.locals legible'.frames.locals locals
    have frames : m.frames = n.frames := by
      calc m.frames
        _ = ⟨m.frames.global, m.frames.locals, m.frames.temporary⟩ := rfl
        _ = ⟨n.frames.global, n.frames.locals, n.frames.temporary⟩ := by
          rw [«global», temporary, locals]
    exact ⟨Nat.succ.inj position, UInt32.toNat_inj.1 orders, executed,
      stack_inj legible.stack legible'.stack (behind values), calls_inj (behind returns), frames⟩

theorem dump_determines_lookalikes :
    let m : Machine Unit Unit := { initial ⟨[], none⟩ () () false with
      stack := [.float (.zero true), .string "1, int@2"]
      frames := ⟨⟨[("x", some (.string "1 y=<uninitialized>"))]⟩, [], none⟩ }
    let n : Machine Unit Unit := { m with next := 3, statistics := some .initial }
    m.Legible ∧ n.Legible ∧ m.dumpText 1 = n.dumpText 1 ∧
      m.stack = n.stack ∧ m.calls = n.calls ∧ m.frames = n.frames := by
  intro m n
  have stack : ∀ v ∈ m.stack, v.Proper :=
    List.forall_mem_cons.2 ⟨(by decide : (Binary64.zero true).isNaN = false),
      List.forall_mem_cons.2 ⟨trivial, List.forall_mem_nil _⟩⟩
  have named : m.frames.global.Legible := by
    have name : LegibleName "x" := .of_isIdentifier rfl
    exact List.forall_mem_cons.2 ⟨⟨name, fun v same => Option.some.inj same ▸ trivial⟩,
      List.forall_mem_nil _⟩
  have frames : LegibleFrames m.frames := ⟨named, nofun, List.forall_mem_nil _⟩
  have same : m.dumpText 1 = n.dumpText 1 := rfl
  have ⟨_, _, _, rest⟩ := dump_determines.2.1 m n 1 1 ⟨stack, frames⟩ ⟨stack, frames⟩ same
  exact ⟨⟨stack, frames⟩, ⟨stack, frames⟩, same, rest⟩

end Machine

end IppCode
