import IppCode.Proofs.Verification.Reports
import Mathlib.Data.List.Forall2

/-!
# Exactness of verification

The errors of a program are the flaws that its instructions have, each at the position of its
instruction (`mem_errors_iff`). So verification accepts just the valid programs, reports an error of
a class wherever the rule of the class is broken and nowhere else, and ends with the status of the
gravest class (`errors_exact`).
-/

namespace IppCode.Verification

inductive Concern where
  | order
  | shape
  | literal
  | label

def Fault.concern : Fault → Concern
  | zeroOrder | unordered _ _ => .order
  | argumentCount _ _ | argumentShape _ _ _ _ => .shape
  | invalidLiteral _ => .literal
  | duplicateLabel _ | undefinedLabel _ => .label

/-- What is wrong with the instruction at a position, which counts from zero. -/
inductive Flaw (p : Program) : Nat → Fault → Prop
  | zeroOrder {k : Nat} {i : Instruction} :
      p.instructions[k]? = some i → i.order = 0 → Flaw p k .zeroOrder
  | unordered {k : Nat} {before i : Instruction} :
      p.instructions[k]? = some before → p.instructions[k + 1]? = some i →
        i.order ≤ before.order → Flaw p (k + 1) (.unordered i.order before.order)
  | argumentCount {k : Nat} {i : Instruction} :
      p.instructions[k]? = some i → i.arguments.length ≠ i.opcode.signature.length →
        Flaw p k (.argumentCount i.opcode i.arguments.length)
  | argumentShape {k index : Nat} {i : Instruction} {shape : Shape} {a : Argument} :
      p.instructions[k]? = some i → i.arguments.length = i.opcode.signature.length →
        i.opcode.signature[index]? = some shape → i.arguments[index]? = some a →
          a.fits shape = false → Flaw p k (.argumentShape i.opcode index shape a)
  | invalidLiteral {k : Nat} {i : Instruction} {l : Literal} :
      p.instructions[k]? = some i → .literal l ∈ i.arguments → l.value? = none →
        Flaw p k (.invalidLiteral l)
  | duplicateLabel {j k : Nat} {first i : Instruction} {name : String} :
      j < k → p.instructions[j]? = some first → first.declaredLabel? = some name →
        p.instructions[k]? = some i → i.declaredLabel? = some name →
          Flaw p k (.duplicateLabel name)
  | undefinedLabel {k : Nat} {i : Instruction} {name : String} :
      p.instructions[k]? = some i → i.branchTarget? = some name →
        (∀ other ∈ p.instructions, other.declaredLabel? ≠ some name) →
          Flaw p k (.undefinedLabel name)

variable {p : Program} {k : Nat} {i : Instruction} {e : VerifyError} {c : Concern}

theorem order_flaw {v : Fault} (found : p.instructions[k]? = some i) :
    v ∈ orderFaults (orderBefore none (positioned p.instructions.toList) k) i.order ↔
      Flaw p k v ∧ v.concern = .order := by
  rw [mem_orderFaults]
  constructor
  · rintro (⟨zero, rfl⟩ | ⟨before, preceding, below, rfl⟩)
    · exact ⟨.zeroOrder found zero, rfl⟩
    · cases k with
      | zero => cases preceding
      | succ k =>
        rw [orderBefore, getElem?_positioned, Option.map_map] at preceding
        obtain ⟨earlier, there, rfl⟩ := Option.map_eq_some_iff.1 preceding
        exact ⟨.unordered there found below, rfl⟩
  · rintro ⟨flaw, concern⟩
    cases flaw with
    | zeroOrder here zero =>
      obtain rfl := Option.some.inj (here.symm.trans found)
      exact .inl ⟨zero, rfl⟩
    | unordered there here below =>
      obtain rfl := Option.some.inj (here.symm.trans found)
      exact .inr ⟨_, by rw [orderBefore, getElem?_positioned, there]; rfl, below, rfl⟩
    | argumentCount | argumentShape | invalidLiteral | duplicateLabel | undefinedLabel =>
      cases concern

theorem shape_flaw {v : Fault} (found : p.instructions[k]? = some i) :
    v ∈ argumentFaults i ↔ Flaw p k v ∧ v.concern = .shape := by
  rw [mem_argumentFaults]
  constructor
  · rintro (⟨count, rfl⟩ | ⟨count, index, shape, a, asked, given, unfit, rfl⟩)
    · exact ⟨.argumentCount found count, rfl⟩
    · exact ⟨.argumentShape found count asked given unfit, rfl⟩
  · rintro ⟨flaw, concern⟩
    cases flaw with
    | argumentCount here count =>
      obtain rfl := Option.some.inj (here.symm.trans found)
      exact .inl ⟨count, rfl⟩
    | argumentShape here count asked given unfit =>
      obtain rfl := Option.some.inj (here.symm.trans found)
      exact .inr ⟨count, _, _, _, asked, given, unfit, rfl⟩
    | zeroOrder | unordered | invalidLiteral | duplicateLabel | undefinedLabel => cases concern

theorem Flaw.present {v : Fault} (flaw : Flaw p k v) : ∃ i, p.instructions[k]? = some i := by
  cases flaw <;> exact ⟨_, by assumption⟩

theorem mem_structural :
    e ∈ structuralErrors none (positioned p.instructions.toList) ↔
      ∃ k, e.position = k + 1 ∧ Flaw p k e.fault ∧
        (e.fault.concern = .order ∨ e.fault.concern = .shape) := by
  rw [mem_structuralErrors]
  refine exists_congr fun k => ?_
  simp only [getElem?_positioned, Option.map_eq_some_iff, Prod.mk.injEq]
  constructor
  · rintro ⟨i, ⟨_, found, position, rfl⟩, reported⟩
    rw [order_flaw found, shape_flaw found, ← and_or_left] at reported
    exact ⟨position.symm, reported⟩
  · rintro ⟨position, flaw, concern⟩
    obtain ⟨i, found⟩ := flaw.present
    refine ⟨i, ⟨i, found, position.symm, rfl⟩, ?_⟩
    rw [order_flaw found, shape_flaw found, ← and_or_left]
    exact ⟨flaw, concern⟩

theorem mem_literal :
    e ∈ literalErrors (positioned p.instructions.toList) ↔
      ∃ k, e.position = k + 1 ∧ Flaw p k e.fault ∧ e.fault.concern = .literal := by
  obtain ⟨position, v⟩ := e
  simp only [mem_literalErrors, mem_positioned]
  constructor
  · rintro ⟨i, l, ⟨k, place, found⟩, argument, invalid, rfl⟩
    exact ⟨k, place, .invalidLiteral found argument invalid, rfl⟩
  · rintro ⟨k, place, flaw, concern⟩
    cases flaw with
    | invalidLiteral found argument invalid =>
      exact ⟨_, _, ⟨k, place, found⟩, argument, invalid, rfl⟩
    | zeroOrder | unordered | argumentCount | argumentShape | duplicateLabel | undefinedLabel =>
      cases concern

theorem mem_declared {name : String} :
    name ∈ (positioned p.instructions.toList).filterMap (fun (_, i) => i.declaredLabel?) ↔
      ∃ other ∈ p.instructions, other.declaredLabel? = some name := by
  rw [labels_positioned, List.mem_filterMap]
  simp only [Array.mem_toList_iff]

theorem mem_declared_before {name : String} :
    name ∈ ((positioned p.instructions.toList).take k).filterMap (fun (_, i) => i.declaredLabel?) ↔
      ∃ j < k, ∃ first, p.instructions[j]? = some first ∧ first.declaredLabel? = some name := by
  rw [List.mem_filterMap]
  simp only [List.mem_iff_getElem?, List.getElem?_take]
  constructor
  · rintro ⟨entry, ⟨j, found⟩, declared⟩
    by_cases earlier : j < k
    · rw [if_pos earlier, getElem?_positioned] at found
      obtain ⟨first, there, rfl⟩ := Option.map_eq_some_iff.1 found
      exact ⟨j, earlier, first, there, declared⟩
    · rw [if_neg earlier] at found
      cases found
  · rintro ⟨j, earlier, first, there, declared⟩
    refine ⟨(j + 1, first), ⟨j, ?_⟩, declared⟩
    rw [if_pos earlier, getElem?_positioned, there, Option.map_some]

theorem mem_label :
    e ∈ labelErrors (positioned p.instructions.toList) ↔
      ∃ k, e.position = k + 1 ∧ Flaw p k e.fault ∧ e.fault.concern = .label := by
  obtain ⟨position, v⟩ := e
  simp only [labelErrors, List.mem_append, mem_duplicateErrors, mem_undefinedErrors,
    mem_positioned, mem_declared, mem_declared_before, getElem?_positioned,
    Option.map_eq_some_iff, Prod.mk.injEq, List.not_mem_nil, false_or]
  constructor
  · rintro (⟨k, i, name, ⟨_, found, place, rfl⟩, declared, rfl, j, earlier, first, there, before⟩ |
      ⟨i, name, ⟨k, place, found⟩, target, unknown, rfl⟩)
    · exact ⟨k, place.symm, .duplicateLabel earlier there before found declared, rfl⟩
    · have undeclared (other : Instruction) (listed : other ∈ p.instructions) :
          other.declaredLabel? ≠ some name := fun declares => unknown ⟨other, listed, declares⟩
      exact ⟨k, place, .undefinedLabel found target undeclared, rfl⟩
  · rintro ⟨k, place, flaw, concern⟩
    cases flaw with
    | @duplicateLabel j _ first i name earlier there before found declared =>
      exact .inl ⟨k, i, name, ⟨i, found, place.symm, rfl⟩, declared, rfl, j, earlier, first, there,
        before⟩
    | undefinedLabel found target undeclared =>
      refine .inr ⟨_, _, ⟨k, place, found⟩, target, ?_, rfl⟩
      rintro ⟨other, listed, declares⟩
      exact undeclared other listed declares
    | zeroOrder | unordered | argumentCount | argumentShape | invalidLiteral => cases concern

theorem mem_errors_iff : e ∈ errors p ↔ ∃ k, e.position = k + 1 ∧ Flaw p k e.fault := by
  simp only [errors, List.mem_append, mem_structural, mem_literal, mem_label, ← exists_or,
    ← and_or_left]
  refine exists_congr fun k => and_congr_right fun _ => and_iff_left ?_
  cases e.fault.concern <;> simp

/-! ## The rules -/

/-- Whether the instruction at a position breaks the rule of a class. -/
def Breaks (p : Program) (k : Nat) (i : Instruction) : Concern → Prop
  | .order => i.order = 0 ∨ ∃ j before, k = j + 1 ∧ p.instructions[j]? = some before ∧
      i.order ≤ before.order
  | .shape => ¬ List.Forall₂ (fun a shape => a.fits shape = true) i.arguments i.opcode.signature
  | .literal => ∃ l, .literal l ∈ i.arguments ∧ l.value? = none
  | .label =>
    (∃ name, i.declaredLabel? = some name ∧ ∃ j < k, ∃ first, p.instructions[j]? = some first ∧
      first.declaredLabel? = some name) ∨
    ∃ name, i.branchTarget? = some name ∧
      ∀ other ∈ p.instructions, other.declaredLabel? ≠ some name

theorem argumentFaults_eq_nil :
    argumentFaults i = [] ↔
      List.Forall₂ (fun a shape => a.fits shape = true) i.arguments i.opcode.signature := by
  rw [List.forall₂_iff_get, List.eq_nil_iff_forall_not_mem]
  constructor
  · intro clean
    have count : i.arguments.length = i.opcode.signature.length := by
      by_contra apart
      exact clean _ (mem_argumentFaults.2 (.inl ⟨apart, rfl⟩))
    refine ⟨count, fun index given asked => ?_⟩
    by_contra unfit
    rw [Bool.not_eq_true] at unfit
    exact clean _ (mem_argumentFaults.2 (.inr ⟨count, index, _, _,
      List.getElem?_eq_getElem asked, List.getElem?_eq_getElem given, unfit, rfl⟩))
  · rintro ⟨count, fits⟩ v reported
    rcases mem_argumentFaults.1 reported with
      ⟨apart, -⟩ | ⟨-, index, shape, a, asked, given, unfit, -⟩
    · exact apart count
    · obtain ⟨inside, rfl⟩ := List.getElem?_eq_some_iff.1 asked
      obtain ⟨within, rfl⟩ := List.getElem?_eq_some_iff.1 given
      cases unfit.symm.trans (fits index within inside)

theorem Flaw.breaks {v : Fault} (flaw : Flaw p k v) :
    ∃ i, p.instructions[k]? = some i ∧ Breaks p k i v.concern := by
  cases flaw with
  | zeroOrder found zero => exact ⟨_, found, .inl zero⟩
  | @unordered j before _ there found below => exact ⟨_, found, .inr ⟨j, before, rfl, there, below⟩⟩
  | argumentCount found count => exact ⟨_, found, fun fits => count fits.length_eq⟩
  | argumentShape found count asked given unfit =>
    refine ⟨_, found, fun fits => ?_⟩
    obtain ⟨inside, rfl⟩ := List.getElem?_eq_some_iff.1 asked
    obtain ⟨within, rfl⟩ := List.getElem?_eq_some_iff.1 given
    cases unfit.symm.trans (fits.get within inside)
  | invalidLiteral found argument invalid => exact ⟨_, found, _, argument, invalid⟩
  | @duplicateLabel j _ first _ name earlier there before found declared =>
    exact ⟨_, found, .inl ⟨name, declared, j, earlier, first, there, before⟩⟩
  | undefinedLabel found target undeclared => exact ⟨_, found, .inr ⟨_, target, undeclared⟩⟩

theorem Breaks.flaw (found : p.instructions[k]? = some i) (breaks : Breaks p k i c) :
    ∃ v, Flaw p k v ∧ v.concern = c := by
  cases c with
  | order =>
    rcases breaks with zero | ⟨j, before, rfl, there, below⟩
    · exact ⟨_, .zeroOrder found zero, rfl⟩
    · exact ⟨_, .unordered there found below, rfl⟩
  | shape =>
    obtain ⟨v, reported⟩ := List.exists_mem_of_ne_nil _ (mt argumentFaults_eq_nil.1 breaks)
    exact ⟨v, (shape_flaw found).1 reported⟩
  | literal =>
    obtain ⟨l, argument, invalid⟩ := breaks
    exact ⟨_, .invalidLiteral found argument invalid, rfl⟩
  | label =>
    rcases breaks with ⟨name, declared, j, earlier, first, there, before⟩ | ⟨name, target, missing⟩
    · exact ⟨_, .duplicateLabel earlier there before found declared, rfl⟩
    · exact ⟨_, .undefinedLabel found target missing, rfl⟩

theorem exists_error_iff {position : Nat} :
    (∃ e ∈ errors p, e.position = position ∧ e.fault.concern = c) ↔
      ∃ k i, position = k + 1 ∧ p.instructions[k]? = some i ∧ Breaks p k i c := by
  constructor
  · rintro ⟨e, listed, rfl, rfl⟩
    obtain ⟨k, place, flaw⟩ := mem_errors_iff.1 listed
    obtain ⟨i, found, breaks⟩ := flaw.breaks
    exact ⟨k, i, place, found, breaks⟩
  · rintro ⟨k, i, rfl, found, breaks⟩
    obtain ⟨v, flaw, concern⟩ := breaks.flaw found
    exact ⟨⟨k + 1, v⟩, mem_errors_iff.2 ⟨k, rfl, flaw⟩, rfl, concern⟩

structure Valid (p : Program) : Prop where
  positive : ∀ i ∈ p.instructions, 0 < i.order
  increasing : ∀ (j k : Nat) (a b : Instruction), j < k → p.instructions[j]? = some a →
    p.instructions[k]? = some b → a.order < b.order
  shaped : ∀ i ∈ p.instructions,
    List.Forall₂ (fun a shape => a.fits shape = true) i.arguments i.opcode.signature
  readable : ∀ i ∈ p.instructions, ∀ l, .literal l ∈ i.arguments → l.value?.isSome = true
  unique : ∀ (j k : Nat) (a b : Instruction) (name : String), p.instructions[j]? = some a →
    p.instructions[k]? = some b → a.declaredLabel? = some name → b.declaredLabel? = some name →
      j = k
  declared : ∀ i ∈ p.instructions, ∀ name, i.branchTarget? = some name →
    ∃ other ∈ p.instructions, other.declaredLabel? = some name

theorem increasing_of_adjacent
    (adjacent : ∀ (k : Nat) (before i : Instruction), p.instructions[k]? = some before →
      p.instructions[k + 1]? = some i → before.order < i.order)
    {j k : Nat} {a b : Instruction} (earlier : j < k) (first : p.instructions[j]? = some a)
    (last : p.instructions[k]? = some b) : a.order < b.order := by
  induction k generalizing b with
  | zero => cases earlier
  | succ k ih =>
    rcases Nat.lt_succ_iff_lt_or_eq.1 earlier with further | rfl
    · have inside : k < p.instructions.size :=
        Nat.lt_of_succ_lt (Array.getElem?_eq_some_iff.1 last).1
      have between := Array.getElem?_eq_getElem inside
      exact UInt32.lt_trans (ih further between) (adjacent k _ _ between last)
    · exact adjacent j a b first last

theorem valid_iff :
    Valid p ↔ ∀ k i c, p.instructions[k]? = some i → ¬ Breaks p k i c := by
  constructor
  · intro valid k i c found breaks
    have listed := Array.mem_of_getElem? found
    cases c with
    | order =>
      rcases breaks with zero | ⟨j, before, rfl, there, below⟩
      · have positive := valid.positive i listed
        simp [zero] at positive
      · have increases := valid.increasing j (j + 1) before i (Nat.lt_succ_self j) there found
        exact UInt32.not_le.2 increases below
    | shape => exact breaks (valid.shaped i listed)
    | literal =>
      obtain ⟨l, argument, invalid⟩ := breaks
      simpa [invalid] using valid.readable i listed l argument
    | label =>
      rcases breaks with
        ⟨name, declared, j, earlier, first, there, before⟩ | ⟨name, target, missing⟩
      · have same := valid.unique j k first i name there found before declared
        exact Nat.ne_of_lt earlier same
      · obtain ⟨other, known, declares⟩ := valid.declared i listed name target
        exact missing other known declares
  · intro intact
    have adjacent (k : Nat) (before i : Instruction) (there : p.instructions[k]? = some before)
        (found : p.instructions[k + 1]? = some i) : before.order < i.order := by
      by_contra below
      exact intact (k + 1) i .order found (.inr ⟨k, before, rfl, there, UInt32.not_lt.1 below⟩)
    have apart (j k : Nat) (a b : Instruction) (name : String) (first : p.instructions[j]? = some a)
        (last : p.instructions[k]? = some b) (declares : a.declaredLabel? = some name)
        (again : b.declaredLabel? = some name) : ¬ j < k := fun earlier =>
      intact k b .label last (.inl ⟨name, again, j, earlier, a, first, declares⟩)
    constructor
    case positive =>
      intro i listed
      obtain ⟨k, found⟩ := Array.getElem?_of_mem listed
      by_contra zero
      exact intact k i .order found (.inl (by simpa using zero))
    case increasing => exact fun j k a b => increasing_of_adjacent adjacent
    case shaped =>
      intro i listed
      obtain ⟨k, found⟩ := Array.getElem?_of_mem listed
      by_contra misfit
      exact intact k i .shape found misfit
    case readable =>
      intro i listed l argument
      obtain ⟨k, found⟩ := Array.getElem?_of_mem listed
      by_contra unread
      exact intact k i .literal found ⟨l, argument, by simpa using unread⟩
    case unique =>
      intro j k a b name first last declares again
      have forward := apart j k a b name first last declares again
      have backward := apart k j b a name last first again declares
      omega
    case declared =>
      intro i listed name target
      obtain ⟨k, found⟩ := Array.getElem?_of_mem listed
      by_contra missing
      refine intact k i .label found (.inr ⟨name, target, fun other known declares => ?_⟩)
      exact missing ⟨other, known, declares⟩

theorem errors_eq_nil_iff : errors p = [] ↔ Valid p := by
  rw [valid_iff, List.eq_nil_iff_forall_not_mem]
  constructor
  · intro clean k i c found breaks
    obtain ⟨e, listed, -⟩ := exists_error_iff.2 ⟨k, i, rfl, found, breaks⟩
    exact clean e listed
  · intro intact e listed
    obtain ⟨k, -, flaw⟩ := mem_errors_iff.1 listed
    obtain ⟨i, found, breaks⟩ := flaw.breaks
    exact intact k i _ found breaks

/-! ## The first error -/

theorem status_code (e : VerifyError) :
    (e.fault.concern = .label ∧ e.status.code = 52) ∨
      (e.fault.concern ≠ .label ∧ e.status.code = 32) := by
  obtain ⟨position, v⟩ := e
  cases v with
  | duplicateLabel | undefinedLabel => exact .inl ⟨rfl, rfl⟩
  | zeroOrder | unordered | argumentCount | argumentShape | invalidLiteral =>
    exact .inr ⟨nofun, rfl⟩

theorem concern_of_mem_front
    (listed : e ∈ structuralErrors none (positioned p.instructions.toList) ++
      literalErrors (positioned p.instructions.toList)) : e.fault.concern ≠ .label := by
  rcases List.mem_append.1 listed with structural | literal
  · obtain ⟨k, -, -, concern⟩ := mem_structural.1 structural
    rcases concern with order | shape
    · simp [order]
    · simp [shape]
  · obtain ⟨k, -, -, concern⟩ := mem_literal.1 literal
    simp [concern]

theorem concern_of_head? (first : (errors p).head? = some e)
    (graver : ∃ other ∈ errors p, other.fault.concern ≠ .label) : e.fault.concern ≠ .label := by
  obtain ⟨other, listed, grave⟩ := graver
  have front {x : VerifyError} := concern_of_mem_front (p := p) (e := x)
  unfold errors at first listed
  simp only at first listed
  generalize structuralErrors none (positioned p.instructions.toList) ++
    literalErrors (positioned p.instructions.toList) = earlier at front first listed
  -- The errors over labels come after all others.
  cases earlier with
  | nil =>
    obtain ⟨k, -, -, concern⟩ := mem_label.1 listed
    exact absurd concern grave
  | cons x rest =>
    obtain rfl := Option.some.inj first
    exact front List.mem_cons_self

/-- Verification accepts just the valid programs. Its errors are the flaws of the instructions, so
there is one of a class at a position just if the instruction there breaks the rule of the class.
The status of the first error tells whether a rule other than that of labels is broken. -/
theorem errors_exact (p : Program) :
    (errors p = [] ↔ Valid p) ∧
    (∀ e, e ∈ errors p ↔ ∃ k, e.position = k + 1 ∧ Flaw p k e.fault) ∧
    (∀ position c, (∃ e ∈ errors p, e.position = position ∧ e.fault.concern = c) ↔
      ∃ k i, position = k + 1 ∧ p.instructions[k]? = some i ∧ Breaks p k i c) ∧
    ∀ e, (errors p).head? = some e →
      ((∃ k i c, p.instructions[k]? = some i ∧ c ≠ .label ∧ Breaks p k i c) →
        e.status.code = 32) ∧
      ((∀ k i c, p.instructions[k]? = some i → Breaks p k i c → c = .label) →
        e.status.code = 52) := by
  refine ⟨errors_eq_nil_iff, fun e => mem_errors_iff, fun position c => exists_error_iff, ?_⟩
  intro e first
  constructor
  · rintro ⟨k, i, c, found, grave, breaks⟩
    obtain ⟨other, listed, -, rfl⟩ := exists_error_iff.2 ⟨k, i, rfl, found, breaks⟩
    have concern := concern_of_head? first ⟨other, listed, grave⟩
    exact (status_code e).elim (fun label => absurd label.1 concern) And.right
  · intro light
    obtain ⟨k, -, flaw⟩ := mem_errors_iff.1 (List.mem_of_mem_head? first)
    obtain ⟨i, found, breaks⟩ := flaw.breaks
    have concern := light k i _ found breaks
    exact (status_code e).elim And.right fun grave => absurd concern grave.1

theorem errors_exact_collected :
    ∃ (p : Program) (e : VerifyError),
      p = ⟨#[⟨.write, 2, [.literal ⟨.int, "x"⟩]⟩, ⟨.write, 1, [.literal ⟨.int, "1"⟩]⟩,
        ⟨.jump, 3, [.label "gone"]⟩]⟩ ∧
      (errors p).head? = some e ∧ e.status.code = 32 ∧ ¬ Valid p ∧
      ∃ e ∈ errors p, e.position = 3 ∧ e.fault.concern = .label := by
  let p : Program := ⟨#[⟨.write, 2, [.literal ⟨.int, "x"⟩]⟩, ⟨.write, 1, [.literal ⟨.int, "1"⟩]⟩,
    ⟨.jump, 3, [.label "gone"]⟩]⟩
  have first : (errors p).head? = some ⟨2, .unordered 1 2⟩ := rfl
  have descends : Breaks p 1 ⟨.write, 1, [.literal ⟨.int, "1"⟩]⟩ .order :=
    .inr ⟨0, _, rfl, rfl, by decide⟩
  have leads : Breaks p 2 ⟨.jump, 3, [.label "gone"]⟩ .label :=
    .inr ⟨"gone", rfl, by simp [p, Instruction.declaredLabel?]⟩
  obtain ⟨accepts, -, reports, ends⟩ := errors_exact p
  refine ⟨p, _, rfl, first, (ends _ first).1 ⟨1, _, .order, rfl, nofun, descends⟩, fun valid => ?_,
    (reports 3 .label).2 ⟨2, _, rfl, rfl, leads⟩⟩
  simp [accepts.2 valid] at first

end IppCode.Verification
