import IppCode.Decoding
import IppCode.Verification

/-!
# Label tables and declarations

A table holds the names that the instructions declare. The declaration that keeps it from being
built is the first one that verification reports.
-/

namespace IppCode

open Verification

theorem Instruction.mem_of_declaredLabel {i : Instruction} {name : String}
    (declared : i.declaredLabel? = some name) : .label name ∈ i.arguments := by
  unfold declaredLabel? at declared
  split at declared
  · rename_i arguments
    rw [arguments, Option.some.inj declared]
    exact List.mem_cons_self
  · cases declared

theorem Instruction.mem_of_branchTarget {i : Instruction} {name : String}
    (target : i.branchTarget? = some name) : .label name ∈ i.arguments := by
  unfold branchTarget? at target
  split at target
  · rename_i other rest arguments
    split at target
    · rw [arguments, Option.some.inj target]
      exact List.mem_cons_self
    · cases target
  · cases target

namespace LabelTable

variable {table final : LabelTable} {position : Nat} {instructions : List Instruction}

theorem find?_cons {name other : String} {entries : List (String × Nat)} :
    (⟨(other, position) :: entries⟩ : LabelTable).find? name =
      if name = other then some position else (⟨entries⟩ : LabelTable).find? name := by
  by_cases same : name = other
  · simp [find?, same]
  · have apart : (name == other) = false := by simpa using same
    simp [find?, List.lookup_cons, apart, same]

theorem extend_cons_eq_ok {i : Instruction} :
    table.extend position (i :: instructions) = .ok final ↔
      (i.declaredLabel? = none ∧ table.extend (position + 1) instructions = .ok final) ∨
      ∃ name, i.declaredLabel? = some name ∧ table.find? name = none ∧
        extend ⟨(name, position) :: table.entries⟩ (position + 1) instructions = .ok final := by
  rw [extend]
  cases i.declaredLabel? with
  | none => simp
  | some name => cases known : table.find? name <;> simp [known]

theorem extend_cons_eq_error {i : Instruction} {repeated : DuplicateLabel} :
    table.extend position (i :: instructions) = .error repeated ↔
      (i.declaredLabel? = none ∧ table.extend (position + 1) instructions = .error repeated) ∨
      ∃ name, i.declaredLabel? = some name ∧
        (((table.find? name).isSome = true ∧ repeated = ⟨name, position + 1⟩) ∨
        (table.find? name = none ∧
          extend ⟨(name, position) :: table.entries⟩ (position + 1) instructions =
            .error repeated)) := by
  rw [extend]
  cases i.declaredLabel? with
  | none => simp
  | some name =>
    cases known : table.find? name with
    | none => simp [known]
    | some k => simpa [known] using eq_comm

theorem find?_extend_eq_none {name : String}
    (h : table.extend position instructions = .ok final) :
    final.find? name = none ↔
      table.find? name = none ∧ name ∉ instructions.filterMap Instruction.declaredLabel? := by
  induction instructions generalizing table position with
  | nil =>
    rw [extend, Except.ok.injEq] at h
    simp [h]
  | cons i rest ih =>
    rcases extend_cons_eq_ok.1 h with ⟨silent, h⟩ | ⟨other, declared, -, h⟩
    · rw [ih h, List.filterMap_cons_none silent]
    · rw [ih h, find?_cons, List.filterMap_cons_some declared]
      by_cases same : name = other <;> simp [same]

theorem declared_of_find?_extend {name : String} {k : Nat}
    (h : table.extend position instructions = .ok final) (found : final.find? name = some k) :
    table.find? name = some k ∨
      ∃ j i, instructions[j]? = some i ∧ i.declaredLabel? = some name ∧ k = position + j := by
  induction instructions generalizing table position with
  | nil =>
    rw [extend, Except.ok.injEq] at h
    exact .inl (h ▸ found)
  | cons i rest ih =>
    have later (place : ∃ j i', rest[j]? = some i' ∧ i'.declaredLabel? = some name ∧
        k = position + 1 + j) :
        ∃ j i', (i :: rest)[j]? = some i' ∧ i'.declaredLabel? = some name ∧ k = position + j := by
      obtain ⟨j, i', inside, declared, rfl⟩ := place
      exact ⟨j + 1, i', by simpa using inside, declared, by omega⟩
    rcases extend_cons_eq_ok.1 h with ⟨silent, h⟩ | ⟨other, declared, -, h⟩
    · exact (ih h).imp_right later
    · rcases ih h with known | place
      · rw [find?_cons] at known
        split at known
        · rename_i same
          obtain rfl := Option.some.inj known
          exact .inr ⟨0, i, rfl, same ▸ declared, rfl⟩
        · exact .inl known
      · exact .inr (later place)

theorem find?_extend_of_known {name : String} {k : Nat}
    (h : table.extend position instructions = .ok final) (known : table.find? name = some k) :
    final.find? name = some k := by
  induction instructions generalizing table position with
  | nil =>
    rw [extend, Except.ok.injEq] at h
    exact h ▸ known
  | cons i rest ih =>
    rcases extend_cons_eq_ok.1 h with ⟨silent, h⟩ | ⟨other, declared, fresh, h⟩
    · exact ih h known
    · have apart : name ≠ other := by
        rintro rfl
        cases known.symm.trans fresh
      exact ih h (by rw [find?_cons, if_neg apart, known])

theorem find?_extend_of_declared {name : String} {j : Nat} {i : Instruction}
    (h : table.extend position instructions = .ok final) (inside : instructions[j]? = some i)
    (declared : i.declaredLabel? = some name) : final.find? name = some (position + j) := by
  induction instructions generalizing table position j with
  | nil => cases inside
  | cons first rest ih =>
    cases j with
    | zero =>
      obtain rfl := Option.some.inj inside
      rcases extend_cons_eq_ok.1 h with ⟨silent, h⟩ | ⟨other, declared', -, h⟩
      · cases silent.symm.trans declared
      · obtain rfl := Option.some.inj (declared.symm.trans declared')
        exact find?_extend_of_known h (by rw [find?_cons, if_pos rfl, Nat.add_zero])
    | succ j =>
      have onward : position + (j + 1) = position + 1 + j := by omega
      rw [onward]
      rcases extend_cons_eq_ok.1 h with ⟨silent, h⟩ | ⟨other, declared', -, h⟩
      · exact ih h inside
      · exact ih h inside

theorem size_extend (h : table.extend position instructions = .ok final) :
    final.size = table.size + (instructions.filterMap Instruction.declaredLabel?).length := by
  induction instructions generalizing table position with
  | nil =>
    rw [extend, Except.ok.injEq] at h
    simp [h]
  | cons i rest ih =>
    rcases extend_cons_eq_ok.1 h with ⟨silent, h⟩ | ⟨other, declared, -, h⟩
    · rw [ih h, List.filterMap_cons_none silent]
    · rw [ih h, List.filterMap_cons_some declared, size, size, List.length_cons, List.length_cons]
      omega

theorem repeated_of_extend {repeated : DuplicateLabel}
    (h : table.extend position instructions = .error repeated) :
    ∃ j i, instructions[j]? = some i ∧ i.declaredLabel? = some repeated.name ∧
      repeated.position = position + j + 1 := by
  induction instructions generalizing table position with
  | nil => cases h
  | cons i rest ih =>
    -- The rest counts its positions from one place further on.
    have later {table : LabelTable} (h : table.extend (position + 1) rest = .error repeated) :
        ∃ j i', (i :: rest)[j]? = some i' ∧ i'.declaredLabel? = some repeated.name ∧
          repeated.position = position + j + 1 := by
      obtain ⟨j, i', inside, declared, place⟩ := ih h
      exact ⟨j + 1, i', by simpa using inside, declared, by omega⟩
    rcases extend_cons_eq_error.1 h with ⟨silent, h⟩ | ⟨name, declared, ⟨-, rfl⟩ | ⟨-, h⟩⟩
    · exact later h
    · exact ⟨0, i, rfl, declared, rfl⟩
    · exact later h

theorem agree_empty (name : String) :
    name ∈ ([] : List String) ↔ (empty.find? name).isSome = true := by
  simp [empty, find?]

theorem agree_cons {seen : List String} {name : String}
    (agree : ∀ other, other ∈ seen ↔ (table.find? other).isSome = true) (other : String) :
    other ∈ name :: seen ↔
      ((⟨(name, position) :: table.entries⟩ : LabelTable).find? other).isSome = true := by
  rw [find?_cons, List.mem_cons, agree other]
  by_cases same : other = name <;> simp [same]

theorem head?_duplicateErrors_of_extend {seen : List String} {repeated : DuplicateLabel}
    (h : table.extend position instructions = .error repeated)
    (agree : ∀ name, name ∈ seen ↔ (table.find? name).isSome = true) :
    (duplicateErrors seen
      ((instructions.zipIdx (position + 1)).map fun (i, place) => (place, i))).head? =
        some ⟨repeated.position, .duplicateLabel repeated.name⟩ := by
  -- Verification goes through the declarations with the names of the table.
  induction instructions generalizing table position seen with
  | nil => cases h
  | cons i rest ih =>
    simp only [List.zipIdx_cons, List.map_cons, duplicateErrors]
    rcases extend_cons_eq_error.1 h with ⟨silent, h⟩ | ⟨name, declared, ⟨known, rfl⟩ | ⟨fresh, h⟩⟩
    · simp only [silent]
      exact ih h agree
    · simp [declared, (agree name).2 known]
    · have unseen : name ∉ seen := by simp [agree name, fresh]
      simp only [declared, List.contains_iff_mem, unseen, if_false]
      exact ih h (agree_cons agree)

theorem duplicateErrors_of_extend {seen : List String}
    (h : table.extend position instructions = .ok final)
    (agree : ∀ name, name ∈ seen ↔ (table.find? name).isSome = true) :
    duplicateErrors seen
      ((instructions.zipIdx (position + 1)).map fun (i, place) => (place, i)) = [] := by
  induction instructions generalizing table position seen with
  | nil => rfl
  | cons i rest ih =>
    simp only [List.zipIdx_cons, List.map_cons, duplicateErrors]
    rcases extend_cons_eq_ok.1 h with ⟨silent, h⟩ | ⟨name, declared, fresh, h⟩
    · simp only [silent]
      exact ih h agree
    · have unseen : name ∉ seen := by simp [agree name, fresh]
      simp only [declared, List.contains_iff_mem, unseen, if_false]
      exact ih h (agree_cons agree)

end LabelTable

theorem Program.decodeLabels_eq_ok {p : Program} {labels : LabelTable} :
    p.decodeLabels = .ok labels ↔ p.labels = .ok labels := by
  rw [decodeLabels]
  cases p.labels with
  | ok table =>
    constructor
    · rintro ⟨⟩
      rfl
    · rintro ⟨⟩
      rfl
  | error repeated => constructor <;> rintro ⟨⟩

theorem Program.decodeLabels_eq_error {p : Program} {e : DecodeError} :
    p.decodeLabels = .error e ↔
      ∃ repeated, p.labels = .error repeated ∧ e = .duplicateLabel repeated := by
  rw [decodeLabels]
  cases p.labels with
  | ok table =>
    constructor
    · rintro ⟨⟩
    · rintro ⟨_, ⟨⟩, _⟩
  | error repeated =>
    constructor
    · rintro ⟨⟩
      exact ⟨repeated, rfl, rfl⟩
    · rintro ⟨_, ⟨⟩, rfl⟩
      rfl

theorem Program.declared_of_find? {p : Program} {labels : LabelTable} {name : String} {k : Nat}
    (h : p.labels = .ok labels) (found : labels.find? name = some k) :
    ∃ i, p.instructions[k]? = some i ∧ i.declaredLabel? = some name := by
  rcases LabelTable.declared_of_find?_extend h found with absent | ⟨j, i, inside, declared, rfl⟩
  · cases absent
  · exact ⟨i, by simpa using inside, declared⟩

theorem Program.find?_labels {p : Program} {labels : LabelTable} {name : String} {k : Nat}
    (h : p.labels = .ok labels) :
    labels.find? name = some k ↔
      ∃ i, p.instructions[k]? = some i ∧ i.declaredLabel? = some name := by
  constructor
  · exact declared_of_find? h
  · intro ⟨i, inside, declared⟩
    have found := LabelTable.find?_extend_of_declared h (by simpa using inside) declared
    rwa [Nat.zero_add] at found

end IppCode
