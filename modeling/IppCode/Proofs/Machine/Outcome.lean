import IppCode.Machine.Step

/-!
# Outcomes of actions

`Ensures x m Q E` says of the action `x` on the machine `m` that a result and the machine it leaves
satisfy `Q`, and a fault and the machine it leaves satisfy `E`. The equivalences below reduce it to
facts about what the instruction looks at; together they compute it for every instruction.
-/

namespace IppCode.Machine

variable {Out Diag α β : Type}

def Ensures (x : Action Out Diag α) (m : Machine Out Diag)
    (Q : α → Machine Out Diag → Prop) (E : Fault → Machine Out Diag → Prop) : Prop :=
  match x.run m with
  | .ok a after => Q a after
  | .error fault after => E fault after

section
variable {x : Action Out Diag α} {m after : Machine Out Diag} {Q Q' : α → Machine Out Diag → Prop}
  {E E' : Fault → Machine Out Diag → Prop}

theorem Ensures.of_ok {a : α} (h : Ensures x m Q E) (result : x.run m = .ok a after) :
    Q a after := by
  simpa only [Ensures, result] using h

theorem Ensures.of_error {fault : Fault} (h : Ensures x m Q E)
    (result : x.run m = .error fault after) : E fault after := by
  simpa only [Ensures, result] using h

theorem Ensures.mono (h : Ensures x m Q E) (ok : ∀ a after, Q a after → Q' a after)
    (error : ∀ fault after, E fault after → E' fault after) : Ensures x m Q' E' := by
  unfold Ensures at h ⊢
  cases result : x.run m with
  | ok a after => exact ok a after (by simpa only [result] using h)
  | error fault after => exact error fault after (by simpa only [result] using h)

end

section
variable {m : Machine Out Diag} {Q : α → Machine Out Diag → Prop}
  {R : β → Machine Out Diag → Prop} {U : Unit → Machine Out Diag → Prop}
  {E : Fault → Machine Out Diag → Prop}

@[simp] theorem ensures_pure {a : α} : Ensures (pure a) m Q E ↔ Q a m := Iff.rfl

@[simp] theorem ensures_throw {fault : Fault} :
    Ensures (throw fault : Action Out Diag α) m Q E ↔ E fault m := Iff.rfl

@[simp] theorem ensures_get {Q : Machine Out Diag → Machine Out Diag → Prop} :
    Ensures get m Q E ↔ Q m m := Iff.rfl

@[simp] theorem ensures_modify {f : Machine Out Diag → Machine Out Diag} :
    Ensures (modify f) m U E ↔ U () (f m) := Iff.rfl

@[simp] theorem ensures_bind {x : Action Out Diag α} {f : α → Action Out Diag β} :
    Ensures (x >>= f) m R E ↔ Ensures x m (fun a after => Ensures (f a) after R E) E := by
  simp only [Ensures, EStateM.run_bind]
  cases x.run m <;> rfl

@[simp] theorem ensures_map {x : Action Out Diag α} {f : α → β} :
    Ensures (f <$> x) m R E ↔ Ensures x m (fun a after => R (f a) after) E := by
  rw [map_eq_pure_bind, ensures_bind]
  rfl

@[simp] theorem ensures_proceed {x : Action Out Diag Unit}
    {R : Option Halt → Machine Out Diag → Prop} :
    Ensures (proceed x) m R E ↔ Ensures x m (fun _ after => R none after) E := by
  simp [proceed]

@[simp] theorem ensures_ite {c : Prop} [Decidable c] {x y : Action Out Diag α} :
    Ensures (if c then x else y) m Q E ↔ (c → Ensures x m Q E) ∧ (¬ c → Ensures y m Q E) := by
  split <;> simp_all

@[simp] theorem ensures_dite {c : Prop} [Decidable c] {x : c → Action Out Diag α}
    {y : ¬ c → Action Out Diag α} :
    Ensures (if h : c then x h else y h) m Q E ↔
      (∀ h, Ensures (x h) m Q E) ∧ ∀ h, Ensures (y h) m Q E := by
  split <;> simp_all

theorem run_view (f : Frames → Except Fault α) :
    (view f : Action Out Diag α).run m =
      match f m.frames with
      | .ok a => .ok a m
      | .error fault => .error fault m := rfl

theorem run_lift_ok {a : α} : (lift (.ok a) : Action Out Diag α).run m = .ok a m := rfl

theorem run_lift_error {fault : Fault} :
    (lift (.error fault) : Action Out Diag α).run m = .error fault m := rfl

@[simp] theorem ensures_view {f : Frames → Except Fault α} :
    Ensures (view f) m Q E ↔
      (∀ a, f m.frames = .ok a → Q a m) ∧ ∀ fault, f m.frames = .error fault → E fault m := by
  simp only [Ensures, EStateM.run, view]
  cases f m.frames <;> simp

@[simp] theorem ensures_lift {result : Except Fault α} :
    Ensures (lift result) m Q E ↔
      (∀ a, result = .ok a → Q a m) ∧ ∀ fault, result = .error fault → E fault m :=
  ensures_view

@[simp] theorem ensures_reframe {f : Frames → Except FrameError Frames} :
    Ensures (reframe f) m U E ↔
      (∀ frames, f m.frames = .ok frames → U () { m with frames }) ∧
        ∀ e, f m.frames = .error e → E (.frame e) m := by
  simp only [Ensures, EStateM.run, reframe]
  cases f m.frames <;> simp

@[simp] theorem ensures_assign {v : Variable} {value : Value} :
    Ensures (assign v value) m U E ↔
      (∀ frames, m.frames.write v value = .ok frames → U () { m with frames }) ∧
        ∀ e, m.frames.write v value = .error e → E (.frame e) m :=
  ensures_reframe

@[simp] theorem ensures_push {value : Value} :
    Ensures (push value) m U E ↔ U () { m with stack := value :: m.stack } := Iff.rfl

@[simp] theorem ensures_clear : Ensures clear m U E ↔ U () { m with stack := [] } := Iff.rfl

@[simp] theorem ensures_goTo {position : Nat} :
    Ensures (goTo position) m U E ↔ U () { m with next := position } := Iff.rfl

theorem ensures_requireDepth {opcode : Opcode} {needed : Nat} :
    Ensures (requireDepth opcode needed) m U E ↔
      (needed ≤ m.stack.length → U () m) ∧
        (m.stack.length < needed → E (.stackUnderflow opcode needed m.stack.length) m) := by
  simp only [Ensures, EStateM.run, requireDepth]
  by_cases short : m.stack.length < needed
  · simp [short, Nat.not_le.2 short]
  · simp [short, Nat.not_lt.1 short]

theorem ensures_takeTop {opcode : Opcode} {Q : Value → Machine Out Diag → Prop} :
    Ensures (takeTop opcode) m Q E ↔
      (∀ a rest, m.stack = a :: rest → Q a { m with stack := rest }) ∧
        (m.stack = [] → E (.stackUnderflow opcode 1 0) m) := by
  simp only [Ensures, EStateM.run, takeTop]
  cases h : m.stack <;> simp

@[simp] theorem ensures_takeOne {opcode : Opcode} {Q : Value → Machine Out Diag → Prop} :
    Ensures (takeOne opcode) m Q E ↔
      (∀ a rest, m.stack = a :: rest → Q a { m with stack := rest }) ∧
        (m.stack = [] → E (.stackUnderflow opcode 1 0) m) := by
  rw [takeOne, ensures_bind, ensures_requireDepth, ensures_takeTop]
  cases h : m.stack <;> simp

@[simp] theorem ensures_takeTwo {opcode : Opcode} {Q : Value × Value → Machine Out Diag → Prop} :
    Ensures (takeTwo opcode) m Q E ↔
      (∀ a b rest, m.stack = b :: a :: rest → Q (a, b) { m with stack := rest }) ∧
        (m.stack.length < 2 → E (.stackUnderflow opcode 2 m.stack.length) m) := by
  rw [takeTwo, ensures_bind, ensures_requireDepth]
  simp only [ensures_bind, ensures_takeTop, ensures_pure]
  rcases h : m.stack with _ | ⟨b, _ | ⟨a, rest⟩⟩
  · simp
  · simp
  · have deep : ¬ rest.length + 1 + 1 < 2 := by omega
    simp [deep]

theorem takeTop_of_requireDepth {opcode : Opcode} {needed : Nat} {after : Machine Out Diag}
    (deep : (requireDepth opcode (needed + 1)).run m = .ok () after) :
    ∃ a rest, (takeTop opcode).run after = .ok a { m with stack := rest } ∧
      needed ≤ rest.length := by
  simp only [EStateM.run, requireDepth] at deep
  split at deep
  · cases deep
  · rename_i enough
    cases deep
    cases h : m.stack with
    | nil => simp [h] at enough
    | cons a rest =>
      exact ⟨a, rest, by simp [EStateM.run, takeTop, h], by simpa [h] using enough⟩

@[simp] theorem ensures_ret :
    Ensures ret m U E ↔
      (∀ position rest, m.calls = position :: rest →
        U () { m with calls := rest, next := position }) ∧
        (m.calls = [] → E .emptyCallStack m) := by
  simp only [Ensures, EStateM.run, ret]
  cases h : m.calls <;> simp

@[simp] theorem ensures_resolve {name : String} {Q : Nat → Machine Out Diag → Prop} :
    Ensures (resolve name) m Q E ↔
      (∀ position, m.labels.find? name = some position → Q position m) ∧
        (m.labels.find? name = none → E (.undefinedLabel name) m) := by
  simp only [Ensures, EStateM.run, resolve]
  cases h : m.labels.find? name <;> simp

@[simp] theorem ensures_readLine {Q : Option String → Machine Out Diag → Prop} :
    Ensures readLine m Q E ↔
      (∀ input line, m.input.readLine = (input, .ok line) → Q line { m with input }) ∧
        ∀ input text, m.input.readLine = (input, .error text) →
          E (.io text) { m with input } := by
  simp only [Ensures, EStateM.run, readLine]
  rcases m.input.readLine with ⟨input, line | text⟩ <;> simp

@[simp] theorem ensures_writeOutput [Sink Out] {text : String} :
    Ensures (writeOutput text) m U E ↔
      (∀ output, Sink.write m.output (Text.bytes text) = (output, none) →
        U () { m with output }) ∧
        ∀ output failure, Sink.write m.output (Text.bytes text) = (output, some failure) →
          E (.io failure) { m with output } := by
  simp only [Ensures, EStateM.run, writeOutput]
  rcases Sink.write m.output (Text.bytes text) with ⟨output, _ | failure⟩ <;> simp

@[simp] theorem ensures_writeDiagnostics [Sink Diag] {text : String} :
    Ensures (writeDiagnostics text) m U E ↔
      (∀ diagnostics, Sink.write m.diagnostics (Text.bytes text) = (diagnostics, none) →
        U () { m with diagnostics }) ∧
        ∀ diagnostics failure,
          Sink.write m.diagnostics (Text.bytes text) = (diagnostics, some failure) →
            E (.io failure) { m with diagnostics } := by
  simp only [Ensures, EStateM.run, writeDiagnostics]
  rcases Sink.write m.diagnostics (Text.bytes text) with ⟨diagnostics, _ | failure⟩ <;> simp

end

section
variable {m : Machine Out Diag} {U : Unit → Machine Out Diag → Prop}
  {E : Fault → Machine Out Diag → Prop} {i : Instruction}

theorem ensures_branchTarget {Q : Nat → Machine Out Diag → Prop} :
    Ensures (branchTarget i) m Q E ↔
      (∀ name, i.labelAt 0 = .ok name →
        (∀ position, m.labels.find? name = some position → Q position m) ∧
          (m.labels.find? name = none → E (.undefinedLabel name) m)) ∧
        ∀ fault, i.labelAt 0 = .error fault → E fault m := by
  simp [branchTarget]

end

end IppCode.Machine
