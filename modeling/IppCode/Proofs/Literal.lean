import IppCode.Proofs.Binary64.RoundTrip
import IppCode.Proofs.Text.Escape
import IppCode.Value

/-!
# Values written as literals

A value that is not a NaN is the value of the literal that it is written as (`value?_ofValue`). The
text of the literal has no character below 33 and no comment mark (`of_mem_sourceText`).
-/

namespace IppCode

open Text

variable {v : Value} {c : Char}

def Value.Proper : Value → Prop
  | .float x => x.isNaN = false
  | _ => True

theorem Value.plain_display (other : ∀ s, v ≠ .string s) : Plain v.display.toList := by
  cases v with
  | int n => exact plain_toString_int n.toInt
  | float x =>
    rw [display, String.toList_ofList]
    exact Binary64.Hexadecimal.plain_write x
  | bool b => cases b <;> decide
  | string s => exact absurd rfl (other s)
  | nil => decide

theorem Value.of_mem_sourceText (inside : c ∈ v.sourceText.toList) : 32 < c.toNat ∧ c ≠ '#' := by
  have plain {text : List Char} (plain : Plain text) (inside : c ∈ text) :
      32 < c.toNat ∧ c ≠ '#' := by
    obtain ⟨low, -⟩ := plain c inside
    exact ⟨by omega, by rintro rfl; exact absurd low (by decide)⟩
  cases v with
  | int n => exact plain (Value.plain_display (by simp)) inside
  | float x => exact plain (Value.plain_display (by simp)) inside
  | bool b => exact plain (Value.plain_display (by simp)) inside
  | string s =>
    rw [sourceText, String.toList_ofList] at inside
    exact Escape.of_mem_encode inside
  | nil => exact plain (by decide : Plain "nil".toList) inside

theorem Value.sourceText_of_nil (nil : v.kind = .nil) : v.sourceText = "nil" := by
  cases v with
  | nil => rfl
  | _ => cases nil

theorem int64?_toString (n : Int64) : int64? (toString n.toInt).toList = some n := by
  rw [int64?, trim_eq_self (plain_toString_int _).unblank, boundedInteger?_eq_some
    (integer?_toString _) (Int64.minValue_le_toInt n) (Int64.toInt_le n), Option.map_some,
    Int64.ofInt_toInt]

theorem Literal.value?_ofValue (proper : v.Proper) : (Literal.ofValue v).value? = some v := by
  cases v with
  | int n =>
    show (int64? (toString n.toInt).toList).map Value.int = _
    rw [int64?_toString, Option.map_some]
  | float x =>
    show (Binary64.read? (String.ofList (Binary64.Hexadecimal.write x)).toList).map Value.float = _
    rw [String.toList_ofList, Binary64.Hexadecimal.read?_write proper, Option.map_some]
  | bool b => cases b <;> rfl
  | string s =>
    show (Escape.decode? (String.ofList (Escape.encode s.toList)).toList).map _ = _
    rw [String.toList_ofList, Escape.decode?_encode, Option.map_some, String.ofList_toList]
  | nil => rfl

/-- A literal that a value is written as has that value, and an escaped text has nothing to escape:
no character below 33, no comment mark and no backslash but those in front of their own three
digits. -/
theorem literals_read_back :
    (∀ v : Value, v.kind ≠ .float → (Literal.ofValue v).value? = some v) ∧
    ∀ s : List Char, Escape.decode? (Escape.encode s) = some s ∧
      (∀ c ∈ Escape.encode s, 32 < c.toNat ∧ c ≠ '#') ∧
      ∀ before after, Escape.encode s = before ++ '\\' :: after →
        ∃ front c back, s = front ++ c :: back ∧ Escape.needed c = true ∧
          before = Escape.encode front ∧ after = Escape.threeDigits c.toNat ++ Escape.encode back ∧
          (∀ d ∈ Escape.threeDigits c.toNat, d.isDigit = true) ∧
          natural? (Escape.threeDigits c.toNat) = some c.toNat := by
  refine ⟨fun v kind => ?_, fun s => ⟨Escape.decode?_encode s, fun c => Escape.of_mem_encode,
    fun before after split => ?_⟩⟩
  · cases v with
    | float x => exact absurd rfl kind
    | int n => exact Literal.value?_ofValue trivial
    | bool b => exact Literal.value?_ofValue trivial
    | string s => exact Literal.value?_ofValue trivial
    | nil => exact Literal.value?_ofValue trivial
  · obtain ⟨front, c, back, text, escaped, front', back'⟩ := Escape.backslash_encode split
    exact ⟨front, c, back, text, escaped, front', back',
      fun d => Escape.isDigit_of_mem_threeDigits,
      Escape.natural?_threeDigits (Escape.toNat_lt_of_needed escaped)⟩

theorem literals_read_back_least :
    (Literal.ofValue (.int Int64.minValue)).value? = some (.int Int64.minValue) ∧
      ∃ front c back, ['#', '1', '\\'] = front ++ c :: back ∧ Escape.needed c = true ∧
        [] = Escape.encode front ∧
        ['0', '3', '5', '1', '\\', '0', '9', '2'] =
          Escape.threeDigits c.toNat ++ Escape.encode back ∧
        (∀ d ∈ Escape.threeDigits c.toNat, d.isDigit = true) ∧
        natural? (Escape.threeDigits c.toNat) = some c.toNat :=
  ⟨literals_read_back.1 _ (by decide),
    (literals_read_back.2 ['#', '1', '\\']).2.2 [] _ rfl⟩

end IppCode
