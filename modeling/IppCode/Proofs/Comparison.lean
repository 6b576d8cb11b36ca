import IppCode.Proofs.Machine.Equality
import IppCode.Proofs.Text.Order

/-!
# The order of values

Integers, truth values and strings are totally ordered among themselves, strings by the codes of
their characters. Values of different kinds and nil are in no order (`comparison_ordered`).
-/

namespace IppCode

/-- The kinds whose values are all in order. Floats are not, because of the NaNs. -/
def Kind.total : List Kind := [int, bool, string]

def Value.Below : Value → Value → Prop
  | .int x, .int y => x.toInt < y.toInt
  | .bool x, .bool y => x.toNat < y.toNat
  | .string s, .string t => s.toList < t.toList
  | _, _ => False

variable {a b c : Value} {s t : String} {op : ComparisonOp}

theorem compareStrings_lt : compareStrings s t = .lt ↔ s.toList < t.toList := by
  unfold compareStrings
  split
  · rename_i below
    simpa [Text.precedes, Text.bytes_lt_iff] using below
  · rename_i still
    have still : ¬ s.toList < t.toList := by simpa [Text.precedes, Text.bytes_lt_iff] using still
    split <;> simp [still]

theorem compareStrings_gt : compareStrings s t = .gt ↔ t.toList < s.toList := by
  unfold compareStrings
  split
  · rename_i below
    have below : s.toList < t.toList := by simpa [Text.precedes, Text.bytes_lt_iff] using below
    simpa using List.lt_asymm below
  · split
    · rename_i above
      simpa [Text.precedes, Text.bytes_lt_iff] using above
    · rename_i still
      simpa [Text.precedes, Text.bytes_lt_iff] using still

namespace Value

theorem compare?_total (kind : a.kind ∈ Kind.total) (same : b.kind = a.kind) :
    ∃ o, a.compare? b = .ok (some o) ∧ (o = .lt ↔ a.Below b) ∧ (o = .gt ↔ b.Below a) ∧
      (o = .eq ↔ a = b) := by
  cases a with
  | int x =>
    cases b with
    | int y =>
      refine ⟨compare x.toInt y.toInt, rfl, Int.compare_eq_lt, Int.compare_eq_gt, ?_⟩
      rw [Int.compare_eq_eq, Int64.toInt_inj, Value.int.injEq]
    | _ => cases same
  | bool x =>
    cases b with
    | bool y =>
      refine ⟨compare x.toNat y.toNat, rfl, Nat.compare_eq_lt, Nat.compare_eq_gt, ?_⟩
      rw [Nat.compare_eq_eq, Value.bool.injEq]
      cases x <;> cases y <;> decide
    | _ => cases same
  | string s =>
    cases b with
    | string t =>
      refine ⟨compareStrings s t, rfl, compareStrings_lt, compareStrings_gt, ?_⟩
      rw [compareStrings_eq, Value.string.injEq]
    | _ => cases same
  | _ => simp [Kind.total, Value.kind] at kind

theorem Below.trans (first : a.Below b) (second : b.Below c) : a.Below c := by
  cases a with
  | int x =>
    cases b with
    | int y =>
      cases c with
      | int z => exact Int.lt_trans first second
      | _ => cases second
    | _ => cases first
  | bool x =>
    cases b with
    | bool y =>
      cases c with
      | bool z => exact Nat.lt_trans first second
      | _ => cases second
    | _ => cases first
  | string s =>
    cases b with
    | string t =>
      cases c with
      | string u => exact List.lt_trans first second
      | _ => cases second
    | _ => cases first
  | _ => cases first

end Value

namespace ComparisonOp

theorem apply_of_total (kind : a.kind ∈ Kind.total) (same : b.kind = a.kind) :
    op.apply a b = (a.compare? b).map op.holds := by
  cases op with
  | lt | gt => rfl
  | eq =>
    cases a with
    | float | nil => simp [Kind.total, Value.kind] at kind
    | int | bool | string =>
      cases b with
      | nil => cases same
      | _ => rfl

theorem apply_total (kind : a.kind ∈ Kind.total) (same : b.kind = a.kind) :
    ∃ o, (∀ op : ComparisonOp, op.apply a b = .ok (op.holds (some o))) ∧
      (o = .lt ↔ a.Below b) ∧ (o = .gt ↔ b.Below a) ∧ (o = .eq ↔ a = b) := by
  obtain ⟨o, compared, order⟩ := Value.compare?_total kind same
  refine ⟨o, fun op => ?_, order⟩
  rw [apply_of_total kind same, compared]
  rfl

theorem lt_apply (kind : a.kind ∈ Kind.total) (same : b.kind = a.kind) :
    lt.apply a b = .ok true ↔ a.Below b := by
  obtain ⟨o, applied, below, -⟩ := apply_total kind same
  rw [applied, ← below]
  cases o <;> simp [holds]

theorem holds_unique (o : Ordering) :
    ∃ op : ComparisonOp, ∀ other : ComparisonOp, other.holds (some o) = decide (other = op) := by
  cases o with
  | lt => exact ⟨.lt, fun other => by cases other <;> rfl⟩
  | eq => exact ⟨.eq, fun other => by cases other <;> rfl⟩
  | gt => exact ⟨.gt, fun other => by cases other <;> rfl⟩

theorem apply_unique (kind : a.kind ∈ Kind.total) (same : b.kind = a.kind) :
    ∃ op : ComparisonOp, ∀ other : ComparisonOp, other.apply a b = .ok (decide (other = op)) := by
  obtain ⟨o, applied, -⟩ := apply_total kind same
  obtain ⟨op, unique⟩ := holds_unique o
  exact ⟨op, fun other => by rw [applied, unique]⟩

theorem lt_mirrored (kind : a.kind ∈ Kind.total) (same : b.kind = a.kind) :
    lt.apply a b = gt.apply b a := by
  obtain ⟨o, applied, below, -⟩ := apply_total kind same
  obtain ⟨o', applied', -, above, -⟩ := apply_total (same ▸ kind) same.symm
  have mirrored : o = .lt ↔ o' = .gt := below.trans above.symm
  rw [applied, applied']
  cases o <;> cases o' <;> simp_all [holds]

theorem apply_unordered (apart : a.kind ≠ b.kind ∨ a = .nil ∨ b = .nil) (ordering : op ≠ .eq) :
    op.apply a b = .error (.kindMismatch a.kind b.kind) := by
  have compared : a.compare? b = .error (.kindMismatch a.kind b.kind) := by
    cases a <;> cases b <;> simp_all [Value.compare?, Value.kind]
  cases op with
  | lt | gt =>
    change (a.compare? b).map _ = _
    rw [compared]
    rfl
  | eq => exact absurd rfl ordering

end ComparisonOp

/-- Of three comparisons of two values exactly one holds, unless they are of different kinds, floats
or nil. Strings are ordered by the codes of their characters, and nil is not even in order with
nil. -/
theorem comparison_ordered (a b c : Value) :
    (a.kind ∈ Kind.total → b.kind = a.kind → c.kind = a.kind →
      (∃ op : ComparisonOp, ∀ other : ComparisonOp,
        other.apply a b = .ok (decide (other = op))) ∧
      ComparisonOp.lt.apply a b = ComparisonOp.gt.apply b a ∧
      (ComparisonOp.lt.apply a b = .ok true → ComparisonOp.lt.apply b c = .ok true →
        ComparisonOp.lt.apply a c = .ok true)) ∧
    (∀ s t, a = .string s → b = .string t →
      (ComparisonOp.lt.apply a b = .ok true ↔
        s.toList.map Char.toNat < t.toList.map Char.toNat)) ∧
    (a.kind ≠ b.kind ∨ a = .nil ∨ b = .nil →
      ComparisonOp.lt.apply a b = .error (.kindMismatch a.kind b.kind) ∧
      ComparisonOp.gt.apply a b = .error (.kindMismatch a.kind b.kind)) := by
  refine ⟨fun kind same same' => ?_, fun s t left right => ?_, fun apart => ?_⟩
  · refine ⟨ComparisonOp.apply_unique kind same, ComparisonOp.lt_mirrored kind same, ?_⟩
    intro first second
    have below := (ComparisonOp.lt_apply kind same).1 first
    have below' := (ComparisonOp.lt_apply (same ▸ kind) (same'.trans same.symm)).1 second
    exact (ComparisonOp.lt_apply kind same').2 (below.trans below')
  · subst left right
    rw [Text.map_toNat_lt]
    exact ComparisonOp.lt_apply (by simp [Kind.total, Value.kind]) rfl
  · exact ⟨ComparisonOp.apply_unordered apart (by decide),
      ComparisonOp.apply_unordered apart (by decide)⟩

/-- The first character takes three bytes and the second one four, and in units of sixteen bits the
order would be the other way round. -/
theorem comparison_ordered_astral :
    ComparisonOp.lt.apply (.string "\uffff") (.string "😀") = .ok true ∧
      ComparisonOp.gt.apply (.string "😀") (.string "\uffff") = .ok true ∧
      ComparisonOp.gt.apply .nil .nil = .error (.kindMismatch .nil .nil) := by
  obtain ⟨total, strings, -⟩ :=
    comparison_ordered (.string "\uffff") (.string "😀") (.string "\uffff")
  have below := (strings _ _ rfl rfl).2 (by decide)
  have mirrored := (total (by decide) rfl rfl).2.1
  have nil := ((comparison_ordered .nil .nil .nil).2.2 (.inr (.inl rfl))).2
  exact ⟨below, mirrored.symm.trans below, nil⟩

end IppCode
