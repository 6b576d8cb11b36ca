import IppCode.Proofs.Machine.Operand
import IppCode.Verification

/-!
# What verification reports

The faults of a run that verification looks for, and that each of them which an instruction can
give rise to is among the errors of the program.
-/

namespace IppCode

def Fault.isStatic : Fault → Bool
  | malformed _ _ | invalidLiteral _ | duplicateLabel _ | undefinedLabel _ => true
  | _ => false

namespace Verification

/-- A fault of verification and what a run reports in its place. -/
inductive Foretells : Fault → IppCode.Fault → Prop
  | argumentCount {opcode : Opcode} {found : Nat} {fault : ArgumentFault} :
      Foretells (.argumentCount opcode found) (.malformed opcode fault)
  | argumentShape {opcode : Opcode} {index : Nat} {expected : Shape} {found : Argument} :
      Foretells (.argumentShape opcode index expected found)
        (.malformed opcode (.wrongShape index expected found))
  | invalidLiteral {literal : Literal} :
      Foretells (.invalidLiteral literal) (.invalidLiteral literal)
  | duplicateLabel {name : String} : Foretells (.duplicateLabel name) (.duplicateLabel name)
  | undefinedLabel {name : String} : Foretells (.undefinedLabel name) (.undefinedLabel name)

theorem Foretells.status {v : Fault} {fault : IppCode.Fault} (foretells : Foretells v fault)
    (position : Nat) : VerifyError.status ⟨position, v⟩ = fault.status := by
  cases foretells <;> rfl

variable {p : Program} {i : Instruction} {position k index : Nat} {e : VerifyError}
  {previous : Option UInt32} {instructions : List (Nat × Instruction)}

theorem mem_errors :
    e ∈ errors p ↔
      e ∈ structuralErrors none (positioned p.instructions.toList) ∨
      e ∈ literalErrors (positioned p.instructions.toList) ∨
      e ∈ duplicateErrors [] (positioned p.instructions.toList) ∨
      e ∈ undefinedErrors
        ((positioned p.instructions.toList).filterMap fun (_, i) => i.declaredLabel?)
        (positioned p.instructions.toList) := by
  simp only [errors, labelErrors, List.mem_append, or_assoc]

theorem getElem?_positioned :
    (positioned p.instructions.toList)[k]? = p.instructions[k]?.map fun i => (k + 1, i) := by
  simp only [positioned, List.getElem?_map, List.getElem?_zipIdx, Array.getElem?_toList,
    Option.map_map, Nat.add_comm 1]
  rfl

theorem mem_positioned :
    (position, i) ∈ positioned p.instructions.toList ↔
      ∃ k, position = k + 1 ∧ p.instructions[k]? = some i := by
  simp only [List.mem_iff_getElem?, getElem?_positioned, Option.map_eq_some_iff, Prod.mk.injEq]
  constructor
  · rintro ⟨k, _, found, rfl, rfl⟩
    exact ⟨k, rfl, found⟩
  · rintro ⟨k, rfl, found⟩
    exact ⟨k, i, found, rfl, rfl⟩

theorem labels_positioned (l : List Instruction) :
    (positioned l).filterMap (fun (_, i) => i.declaredLabel?) =
      l.filterMap Instruction.declaredLabel? := by
  calc (positioned l).filterMap (fun (_, i) => i.declaredLabel?)
    _ = ((l.zipIdx 1).map Prod.fst).filterMap Instruction.declaredLabel? := by
      rw [positioned, List.filterMap_map, List.filterMap_map]
      rfl
    _ = l.filterMap Instruction.declaredLabel? := by
      rw [List.zipIdx_map_fst]

theorem mem_orderFaults {order : UInt32} {v : Fault} :
    v ∈ orderFaults previous order ↔
      (order = 0 ∧ v = .zeroOrder) ∨
      ∃ before, previous = some before ∧ order ≤ before ∧ v = .unordered order before := by
  unfold orderFaults
  rw [List.mem_append]
  refine or_congr ?_ ?_
  · by_cases zero : order = 0 <;> simp [zero]
  · cases previous with
    | none => simp
    | some before => by_cases below : order ≤ before <;> simp [below]

theorem mem_argumentFaults {v : Fault} :
    v ∈ argumentFaults i ↔
      (i.arguments.length ≠ i.opcode.signature.length ∧
        v = .argumentCount i.opcode i.arguments.length) ∨
      i.arguments.length = i.opcode.signature.length ∧ ∃ index shape a,
        i.opcode.signature[index]? = some shape ∧ i.arguments[index]? = some a ∧
          a.fits shape = false ∧ v = .argumentShape i.opcode index shape a := by
  by_cases count : i.arguments.length = i.opcode.signature.length
  · simp only [argumentFaults, count, ne_eq, not_true_eq_false, if_false, false_and, false_or,
      true_and, List.mem_filterMap]
    constructor
    · rintro ⟨⟨⟨shape, a⟩, index⟩, listed, kept⟩
      have places := List.mk_mem_zipIdx_iff_getElem?.1 listed
      obtain ⟨asked, found⟩ := List.getElem?_zip_eq_some.1 places
      cases fit : a.fits shape with
      | true => simp [fit] at kept
      | false =>
        simp only [fit, Bool.false_eq_true, if_false, Option.some.injEq] at kept
        exact ⟨index, shape, a, asked, found, fit, kept.symm⟩
    · rintro ⟨index, shape, a, asked, found, unfit, rfl⟩
      have places := List.getElem?_zip_eq_some (z := (shape, a)).2 ⟨asked, found⟩
      exact ⟨((shape, a), index), List.mk_mem_zipIdx_iff_getElem?.2 places, by simp [unfit]⟩
  · simp [argumentFaults, count]

def orderBefore (previous : Option UInt32) (instructions : List (Nat × Instruction)) :
    Nat → Option UInt32
  | 0 => previous
  | k + 1 => instructions[k]?.map fun entry => entry.2.order

theorem mem_structuralErrors :
    e ∈ structuralErrors previous instructions ↔
      ∃ k i, instructions[k]? = some (e.position, i) ∧
        (e.fault ∈ orderFaults (orderBefore previous instructions k) i.order ∨
          e.fault ∈ argumentFaults i) := by
  induction instructions generalizing previous with
  | nil => simp [structuralErrors]
  | cons first rest ih =>
    obtain ⟨place, j⟩ := first
    have after (k : Nat) : orderBefore (some j.order) rest k =
        orderBefore previous ((place, j) :: rest) (k + 1) := by
      cases k <;> rfl
    have here : e ∈ (orderFaults previous j.order ++ argumentFaults j).map (⟨place, ·⟩) ↔
        place = e.position ∧
          (e.fault ∈ orderFaults previous j.order ∨ e.fault ∈ argumentFaults j) := by
      rw [List.mem_map, ← List.mem_append]
      constructor
      · rintro ⟨v, listed, rfl⟩
        exact ⟨rfl, listed⟩
      · rintro ⟨rfl, listed⟩
        exact ⟨e.fault, listed, rfl⟩
    rw [structuralErrors, List.mem_append, here, ih]
    constructor
    · rintro (⟨rfl, listed⟩ | ⟨k, i, found, listed⟩)
      · exact ⟨0, j, rfl, listed⟩
      · exact ⟨k + 1, i, found, after k ▸ listed⟩
    · rintro ⟨_ | k, i, found, listed⟩
      · rw [List.getElem?_cons_zero, Option.some.injEq, Prod.mk.injEq] at found
        obtain ⟨rfl, rfl⟩ := found
        exact .inl ⟨rfl, listed⟩
      · exact .inr ⟨k, i, found, after k ▸ listed⟩

theorem mem_literalErrors :
    e ∈ literalErrors instructions ↔
      ∃ i literal, (e.position, i) ∈ instructions ∧ .literal literal ∈ i.arguments ∧
        literal.value? = none ∧ e.fault = .invalidLiteral literal := by
  rw [literalErrors, List.mem_flatMap]
  constructor
  · rintro ⟨⟨place, i⟩, listed, reported⟩
    obtain ⟨a, argument, kept⟩ := List.mem_filterMap.1 reported
    cases a with
    | literal literal =>
      cases value : literal.value? with
      | some x => simp [value] at kept
      | none =>
        simp only [value, Option.isNone_none, if_true, Option.some.injEq] at kept
        subst kept
        exact ⟨i, literal, listed, argument, value, rfl⟩
    | var | label | kind => cases kept
  · rintro ⟨i, literal, listed, argument, invalid, fault⟩
    refine ⟨_, listed, List.mem_filterMap.2 ⟨_, argument, ?_⟩⟩
    simp [invalid, ← fault]

theorem mem_duplicateErrors {seen : List String} :
    e ∈ duplicateErrors seen instructions ↔
      ∃ k i name, instructions[k]? = some (e.position, i) ∧ i.declaredLabel? = some name ∧
        e.fault = .duplicateLabel name ∧
        (name ∈ seen ∨
          name ∈ (instructions.take k).filterMap fun entry => entry.2.declaredLabel?) := by
  induction instructions generalizing seen with
  | nil => simp [duplicateErrors]
  | cons first rest ih =>
    obtain ⟨place, j⟩ := first
    rw [duplicateErrors, ← Nat.or_exists_add_one]
    have here : (∃ i name, ((place, j) :: rest)[0]? = some (e.position, i) ∧
        i.declaredLabel? = some name ∧ e.fault = .duplicateLabel name ∧
        (name ∈ seen ∨ name ∈ (((place, j) :: rest).take 0).filterMap fun entry =>
          entry.2.declaredLabel?)) ↔
        ∃ name, j.declaredLabel? = some name ∧ name ∈ seen ∧
          e = ⟨place, .duplicateLabel name⟩ := by
      constructor
      · rintro ⟨i, name, found, label, fault, before⟩
        cases found
        exact ⟨name, label, by simpa using before, by rw [← fault]⟩
      · rintro ⟨name, label, before, rfl⟩
        exact ⟨j, name, rfl, label, rfl, .inl before⟩
    rw [here]
    cases declared : j.declaredLabel? with
    | none => simp [ih, declared]
    | some other =>
      -- Either way the names seen after this declaration are those before and its own.
      have onward (known : List String)
          (agree : ∀ name, name ∈ known ↔ name ∈ seen ∨ name = other) :
          e ∈ duplicateErrors known rest ↔ ∃ k i name, rest[k]? = some (e.position, i) ∧
            i.declaredLabel? = some name ∧ e.fault = .duplicateLabel name ∧
            (name ∈ seen ∨ name ∈ (((place, j) :: rest).take (k + 1)).filterMap fun entry =>
              entry.2.declaredLabel?) := by
        rw [ih]
        simp [declared, agree, or_assoc]
      simp only [Option.some.injEq, exists_eq_left', List.contains_iff_mem,
        List.getElem?_cons_succ]
      by_cases known : other ∈ seen
      · have agree (name : String) : name ∈ seen ↔ name ∈ seen ∨ name = other :=
          ⟨.inl, Or.rec id fun same => same ▸ known⟩
        simp only [known, if_true, List.mem_cons, onward seen agree, true_and]
      · have agree (name : String) : name ∈ other :: seen ↔ name ∈ seen ∨ name = other := by
          rw [List.mem_cons, or_comm]
        simp only [known, if_false, onward _ agree, false_and, false_or]

theorem mem_undefinedErrors {declared : List String} :
    e ∈ undefinedErrors declared instructions ↔
      ∃ i name, (e.position, i) ∈ instructions ∧ i.branchTarget? = some name ∧
        name ∉ declared ∧ e.fault = .undefinedLabel name := by
  rw [undefinedErrors, List.mem_filterMap]
  constructor
  · rintro ⟨⟨place, i⟩, listed, kept⟩
    obtain ⟨name, target, missing⟩ := Option.bind_eq_some_iff.1 kept
    by_cases known : name ∈ declared
    · simp [known] at missing
    · simp only [List.contains_iff_mem, known, if_false, Option.some.injEq] at missing
      subst missing
      exact ⟨i, name, listed, target, known, rfl⟩
  · rintro ⟨i, name, listed, target, unknown, fault⟩
    exact ⟨_, listed, by simp [target, unknown, ← fault]⟩

theorem foretells_of_misfit {shape : Shape} {fault : IppCode.Fault}
    (misfit : i.Misfit index shape fault) (asked : i.opcode.signature[index]? = some shape) :
    ∃ v ∈ argumentFaults i, Foretells v fault := by
  -- A wrong number of arguments is reported in place of their shapes.
  by_cases count : i.arguments.length = i.opcode.signature.length
  · cases misfit with
    | missing absent =>
      have inside := (List.getElem?_eq_some_iff.1 asked).1
      rw [List.getElem?_eq_none_iff, count] at absent
      omega
    | wrongShape found unfit =>
      exact ⟨_, mem_argumentFaults.2 (.inr ⟨count, index, shape, _, asked, found, unfit, rfl⟩),
        .argumentShape⟩
  · refine ⟨_, mem_argumentFaults.2 (.inl ⟨count, rfl⟩), ?_⟩
    cases misfit with
    | missing => exact .argumentCount
    | wrongShape => exact .argumentCount

end Verification

end IppCode
