import IppCode.Proofs.Machine.Grounds
import IppCode.Proofs.Verification.Reports

/-!
# Branches and their labels

Verification and the label table find the same declarations: there is no table just if a label is
reported as declared twice, and a label that a branch leads to is reported as undefined just if the
table does not have it. So a branch that is taken leads to the one declaration of its label
(`labels_agree`).
-/

namespace IppCode

open Verification

namespace Instruction

def Declares (i : Instruction) (name : String) : Prop :=
  i.opcode = .label ∧ i.arguments[0]? = some (.label name)

def LeadsTo (i : Instruction) (name : String) : Prop :=
  i.opcode.isBranch = true ∧ i.arguments[0]? = some (.label name)

/-- Calls and jumps are always taken, the others if their operands are equal or are not. -/
def Takes (i : Instruction) (fs : Frames) (stack : List Value) : Prop :=
  match i.opcode with
  | .jumpIf _ whenEqual => ∃ x y, i.Operand fs stack 1 x ∧ i.Operand fs stack 2 y ∧
      ComparisonOp.eq.apply x y = .ok whenEqual
  | opcode => opcode.isBranch = true

variable {i : Instruction} {name : String} {fs : Frames} {stack : List Value} {x y : Value}
  {index : Nat}

theorem arguments_of_first {a : Argument} (first : i.arguments[0]? = some a) :
    ∃ rest, i.arguments = a :: rest :=
  List.head?_eq_some_iff.1 (List.head?_eq_getElem?.trans first)

theorem declaredLabel?_eq_some : i.declaredLabel? = some name ↔ i.Declares name := by
  unfold declaredLabel? Declares
  split
  · rename_i opcode arguments
    simp [opcode, arguments]
  · rename_i other
    refine ⟨nofun, fun ⟨opcode, first⟩ => ?_⟩
    obtain ⟨rest, arguments⟩ := arguments_of_first first
    exact absurd arguments (other _ _ opcode)

theorem branchTarget?_eq_some : i.branchTarget? = some name ↔ i.LeadsTo name := by
  unfold branchTarget? LeadsTo
  split
  · rename_i arguments
    by_cases branch : i.opcode.isBranch = true <;> simp [arguments, branch]
  · rename_i other
    refine ⟨nofun, fun ⟨_, first⟩ => ?_⟩
    obtain ⟨rest, arguments⟩ := arguments_of_first first
    exact absurd arguments (other _ _)

theorem Operand.unique (first : i.Operand fs stack index x) (second : i.Operand fs stack index y) :
    x = y := by
  unfold Operand at first second
  split at first
  · rename_i untaken
    rw [if_pos untaken] at second
    exact Except.ok.inj (first.symm.trans second)
  · rename_i taken
    rw [if_neg taken] at second
    exact Option.some.inj (first.symm.trans second)

end Instruction

namespace Verification

def VerifyError.isDuplicate (e : VerifyError) : Bool :=
  match e.fault with
  | .duplicateLabel _ => true
  | _ => false

variable {p : Program} {repeated : DuplicateLabel} {table : LabelTable} {e : VerifyError}
  {instructions : List (Nat × Instruction)}

theorem isDuplicate_of_mem {seen : List String} (reported : e ∈ duplicateErrors seen instructions) :
    e.isDuplicate = true := by
  obtain ⟨k, i, name, -, -, fault, -⟩ := mem_duplicateErrors.1 reported
  rw [VerifyError.isDuplicate, fault]

theorem not_isDuplicate_of_mem {declared : List String}
    (reported : e ∈ undefinedErrors declared instructions) : e.isDuplicate = false := by
  obtain ⟨i, name, -, -, -, fault⟩ := mem_undefinedErrors.1 reported
  rw [VerifyError.isDuplicate, fault]

theorem mem_labelErrors_of_isDuplicate (duplicate : e.isDuplicate = true) :
    e ∈ labelErrors instructions ↔ e ∈ duplicateErrors [] instructions := by
  rw [labelErrors, List.mem_append, or_iff_left]
  intro reported
  simp [not_isDuplicate_of_mem reported] at duplicate

theorem find?_labelErrors :
    (labelErrors instructions).find? VerifyError.isDuplicate =
      (duplicateErrors [] instructions).head? := by
  have others (declared : List String) :
      (undefinedErrors declared instructions).find? VerifyError.isDuplicate = none :=
    List.find?_eq_none.2 fun e reported => by simp [not_isDuplicate_of_mem reported]
  rw [labelErrors, List.find?_append, others, Option.or_none]
  cases reports : duplicateErrors [] instructions with
  | nil => rfl
  | cons e rest =>
    have first : e.isDuplicate = true := isDuplicate_of_mem (reports ▸ List.mem_cons_self)
    rw [List.find?_cons_of_pos first, List.head?_cons]

theorem labels_eq_error :
    p.labels = .error repeated ↔
      (duplicateErrors [] (positioned p.instructions.toList)).head? =
        some ⟨repeated.position, .duplicateLabel repeated.name⟩ := by
  have first {other : DuplicateLabel} (table : p.labels = .error other) :
      (duplicateErrors [] (positioned p.instructions.toList)).head? =
        some ⟨other.position, .duplicateLabel other.name⟩ :=
    LabelTable.head?_duplicateErrors_of_extend table LabelTable.agree_empty
  refine ⟨first, fun found => ?_⟩
  cases table : p.labels with
  | error other =>
    have same := (first table).symm.trans found
    obtain ⟨position, name⟩ := other
    cases same
    rfl
  | ok labels =>
    have none := LabelTable.duplicateErrors_of_extend table LabelTable.agree_empty
    cases (congrArg List.head? none).symm.trans found

theorem mem_undefined (built : p.labels = .ok table) {position : Nat} {name : String} :
    ⟨position, .undefinedLabel name⟩ ∈ labelErrors (positioned p.instructions.toList) ↔
      ∃ k i, position = k + 1 ∧ p.instructions[k]? = some i ∧ i.LeadsTo name ∧
        table.find? name = none := by
  have absent : table.find? name = none ↔
      name ∉ p.instructions.toList.filterMap Instruction.declaredLabel? := by
    rw [LabelTable.find?_extend_eq_none built]
    simp [LabelTable.empty, LabelTable.find?]
  rw [labelErrors, labels_positioned, List.mem_append, or_iff_right, mem_undefinedErrors]
  · constructor
    · rintro ⟨i, other, listed, target, unknown, fault⟩
      cases fault
      obtain ⟨k, place, found⟩ := mem_positioned.1 listed
      exact ⟨k, i, place, found, Instruction.branchTarget?_eq_some.1 target, absent.2 unknown⟩
    · rintro ⟨k, i, place, found, leads, missing⟩
      have listed := mem_positioned.2 ⟨k, place, found⟩
      exact ⟨i, name, listed, Instruction.branchTarget?_eq_some.2 leads, absent.1 missing, rfl⟩
  · intro reported
    cases isDuplicate_of_mem reported

end Verification

namespace Machine

variable {Out Diag : Type} [Sink Out] [Sink Diag] {p : Program} {m after : Machine Out Diag}
  {i : Instruction}

theorem takes_jumpIf {form : Form} {whenEqual : Bool} {fs : Frames} {stack : List Value}
    (opcode : i.opcode = .jumpIf form whenEqual) :
    i.Takes fs stack ↔ ∃ x y, i.Operand fs stack 1 x ∧ i.Operand fs stack 2 y ∧
      ComparisonOp.eq.apply x y = .ok whenEqual := by
  rw [Instruction.Takes, opcode]

theorem step_branches (branch : i.opcode.isBranch = true) :
    Ensures (step i) m (fun _ after => ∃ name, i.LeadsTo name ∧
      (i.Takes m.frames m.stack → m.labels.find? name = some after.next) ∧
      (¬ i.Takes m.frames m.stack → after.next = m.next)) (fun _ _ => True) := by
  have leads {name : String} (label : i.labelAt 0 = .ok name) : i.LeadsTo name :=
    ⟨branch, Instruction.labelAt_eq_ok.1 label⟩
  cases opcode : i.opcode with
  | call | jump =>
    have takes : i.Takes m.frames m.stack := by
      rw [Instruction.Takes, opcode]
      rfl
    simp only [step, opcode, call, jump, ensures_proceed, ensures_bind, ensures_branchTarget,
      ensures_modify, ensures_goTo, implies_true, and_true]
    exact fun name label position found => ⟨name, leads label, fun _ => found, absurd takes⟩
  | jumpIf form whenEqual =>
    simp only [step, opcode]
    rw [ensures_proceed, jumpIf, ensures_bind, ensures_branchTarget]
    refine ⟨fun name label => ⟨fun position found => ?_, fun _ => trivial⟩, fun _ _ => trivial⟩
    rw [ensures_bind]
    refine (jumpIf_operands opcode).mono ?_ fun _ _ _ => trivial
    rintro ⟨x, y⟩ now ⟨operands, onward⟩
    rw [ensures_bind, ensures_lift]
    refine ⟨fun equal ok => ?_, fun _ _ => trivial⟩
    have result := asFault_ok ok
    have left := (operands 0 x rfl).1
    have right := (operands 1 y rfl).1
    rw [takes_jumpIf opcode]
    by_cases taken : equal = whenEqual
    · subst taken
      rw [if_pos rfl, ensures_goTo]
      exact ⟨name, leads label, fun _ => found, absurd ⟨x, y, left, right, result⟩⟩
    · rw [if_neg taken, ensures_pure]
      refine ⟨name, leads label, fun ⟨x', y', left', right', result'⟩ => ?_, fun _ => onward⟩
      obtain rfl := left.unique left'
      obtain rfl := right.unique right'
      exact absurd (Except.ok.inj (result.symm.trans result')) taken
  | _ => simp [opcode, Opcode.isBranch] at branch

theorem advance_branches (found : p.instructions[m.next]? = some i)
    (goes : advance p m = (after, none)) (branch : i.opcode.isBranch = true) :
    ∃ name, i.LeadsTo name ∧
      (i.Takes m.frames m.stack → m.labels.find? name = some after.next) ∧
      (¬ i.Takes m.frames m.stack → after.next = m.next + 1) := by
  cases advances_of_advance goes with
  | continued found' ok =>
    obtain rfl := Option.some.inj (found.symm.trans found')
    exact (step_branches branch).of_ok ok

omit [Sink Out] [Sink Diag] in
theorem declares_unique {table : LabelTable} {name : String} {j k : Nat} {l l' : Instruction}
    (built : p.labels = .ok table) (here : p.instructions[j]? = some l) (declares : l.Declares name)
    (there : p.instructions[k]? = some l') (declares' : l'.Declares name) : j = k := by
  have declared := Instruction.declaredLabel?_eq_some.2 declares
  have declared' := Instruction.declaredLabel?_eq_some.2 declares'
  have first := (Program.find?_labels built).2 ⟨l, here, declared⟩
  have second := (Program.find?_labels built).2 ⟨l', there, declared'⟩
  exact Option.some.inj (first.symm.trans second)

/-- There is no table just if a label is reported as declared twice, and the first such report is
what is wrong. Otherwise the table has each declaration at its place, and the branches to labels
that it does not have are those reported. In a run a branch that is taken leads to the only
declaration of its label, and one that is not taken leads to the next instruction. -/
theorem labels_agree (p : Program) (start : Machine Out Diag) :
    ((∃ repeated, p.labels = .error repeated) ↔ ∃ position name,
      ⟨position, .duplicateLabel name⟩ ∈ labelErrors (positioned p.instructions.toList)) ∧
    (∀ repeated, p.labels = .error repeated →
      (labelErrors (positioned p.instructions.toList)).find? VerifyError.isDuplicate =
        some ⟨repeated.position, .duplicateLabel repeated.name⟩) ∧
    (∀ table, p.labels = .ok table →
      (∀ name k, table.find? name = some k ↔
        ∃ l, p.instructions[k]? = some l ∧ l.Declares name) ∧
      (∀ name (j k : Nat) (l l' : Instruction), p.instructions[j]? = some l → l.Declares name →
        p.instructions[k]? = some l' → l'.Declares name → j = k) ∧
      table.size = p.instructions.toList.countP (fun l => l.declaredLabel?.isSome) ∧
      ∀ position name,
        ⟨position, .undefinedLabel name⟩ ∈ labelErrors (positioned p.instructions.toList) ↔
          ∃ k i, position = k + 1 ∧ p.instructions[k]? = some i ∧ i.LeadsTo name ∧
            table.find? name = none) ∧
    ∀ m after i, Sessions p start (.running m) → p.instructions[m.next]? = some i →
      i.opcode.isBranch = true → advance p m = (after, none) →
      ∃ name, i.LeadsTo name ∧
        (i.Takes m.frames m.stack → ∃ l, p.instructions[after.next]? = some l ∧ l.Declares name ∧
          ∀ (k : Nat) l', p.instructions[k]? = some l' → l'.Declares name → k = after.next) ∧
        (¬ i.Takes m.frames m.stack → after.next = m.next + 1) := by
  refine ⟨?_, ?_, ?_, ?_⟩
  · constructor
    · intro ⟨repeated, table⟩
      have first := List.mem_of_mem_head? (labels_eq_error.1 table)
      exact ⟨_, _, (mem_labelErrors_of_isDuplicate rfl).2 first⟩
    · intro ⟨position, name, reported⟩
      have listed := (mem_labelErrors_of_isDuplicate rfl).1 reported
      cases table : p.labels with
      | error repeated => exact ⟨repeated, rfl⟩
      | ok labels =>
        have none : duplicateErrors [] (positioned p.instructions.toList) = [] :=
          LabelTable.duplicateErrors_of_extend table LabelTable.agree_empty
        simp [none] at listed
  · intro repeated table
    exact find?_labelErrors.trans (labels_eq_error.1 table)
  · intro table built
    refine ⟨fun name k => ?_, fun _ _ _ _ _ => declares_unique built, ?_, ?_⟩
    · simp only [Program.find?_labels built, Instruction.declaredLabel?_eq_some]
    · rw [LabelTable.size_extend built, List.length_filterMap_eq_countP]
      exact Nat.zero_add _
    · exact fun position name => mem_undefined built
  · intro m after i reached found branch goes
    have built : p.labels = .ok m.labels := (history_iff.2 reached).labelled
    obtain ⟨name, leads, taken, untaken⟩ := advance_branches found goes branch
    refine ⟨name, leads, fun takes => ?_, untaken⟩
    obtain ⟨l, inside, declared⟩ := Program.declared_of_find? built (taken takes)
    have declares := Instruction.declaredLabel?_eq_some.1 declared
    exact ⟨l, inside, declares, fun k l' there declares' =>
      declares_unique built there declares' inside declares⟩

theorem labels_agree_unequal :
    ∃ (p : Program) (i : Instruction) (m after : Machine Buffer Buffer),
      p = ⟨#[i, ⟨.clear, 2, []⟩, ⟨.label, 3, [.label "end"]⟩]⟩ ∧
      i = ⟨.jumpIf .stack false, 1, [.label "end"]⟩ ∧ m.stack = [.int 2, .int 1] ∧
      advance p m = (after, none) ∧
      (∃ l, p.instructions[after.next]? = some l ∧ l.Declares "end") ∧
      ∀ (k : Nat) l, p.instructions[k]? = some l → l.Declares "end" → k = 2 := by
  let i : Instruction := ⟨.jumpIf .stack false, 1, [.label "end"]⟩
  let p : Program := ⟨#[i, ⟨.clear, 2, []⟩, ⟨.label, 3, [.label "end"]⟩]⟩
  let start : Machine Buffer Buffer :=
    { initial ⟨[], none⟩ Buffer.unbounded Buffer.unbounded false with stack := [.int 2, .int 1] }
  let m : Machine Buffer Buffer := { start with labels := ⟨[("end", 2)]⟩ }
  have reached : Sessions p start (.running m) := ⟨[], start, _, 0, .done, rfl, rfl⟩
  have goes : advance p m = ((advance p m).1, none) := rfl
  have takes : i.Takes m.frames m.stack := ⟨.int 1, .int 2, rfl, rfl, rfl⟩
  obtain ⟨name, leads, taken, -⟩ := (labels_agree p start).2.2.2 m _ i reached rfl rfl goes
  obtain rfl : "end" = name := by simpa [i] using leads.2
  obtain ⟨l, inside, declares, only⟩ := taken takes
  exact ⟨p, i, m, _, rfl, rfl, rfl, goes, ⟨l, inside, declares⟩, only⟩

end Machine

end IppCode
