import IppCode.Operators
import IppCode.Proofs.Text.Encoding
import Mathlib.Algebra.Order.Ring.Nat

/-!
# Characters of a string

The operators on strings agree on what an index is and on how many characters there are
(`characters_indexed`). A number is the code of a character just if it is a Unicode scalar value.
-/

namespace IppCode

variable {s t r : String} {c : Char} {i code : Int64} {e : OperatorError} {n : Nat}

def Inside (s : String) (i : Int64) : Prop := 0 ≤ i.toInt ∧ i.toInt < s.toList.length

theorem Inside.lt (inside : Inside s i) : i.toInt.toNat < s.toList.length := by
  obtain ⟨low, high⟩ := inside
  omega

theorem position_of_inside (inside : Inside s i) :
    position s.toList.length i = .ok ⟨i.toInt.toNat, inside.lt⟩ := dif_pos inside

theorem position_of_outside (outside : ¬ Inside s i) :
    position s.toList.length i = .error (.indexOutOfRange i s.toList.length) := dif_neg outside

theorem charAt_of_inside (inside : Inside s i) :
    charAt s i = .ok (s.toList.get ⟨i.toInt.toNat, inside.lt⟩) := by
  rw [charAt, position_of_inside inside]
  rfl

theorem charAt_of_outside (outside : ¬ Inside s i) :
    charAt s i = .error (.indexOutOfRange i s.toList.length) := by
  rw [charAt, position_of_outside outside]
  rfl

theorem charAt_eq_ok : charAt s i = .ok c ↔ 0 ≤ i.toInt ∧ s.toList[i.toInt.toNat]? = some c := by
  by_cases inside : Inside s i
  · rw [charAt_of_inside inside, List.getElem?_eq_getElem inside.lt, Except.ok.injEq,
      Option.some.injEq]
    exact ⟨fun same => ⟨inside.1, same⟩, fun same => same.2⟩
  · rw [charAt_of_outside inside]
    refine ⟨fun ok => (by cases ok), fun ⟨low, found⟩ => ?_⟩
    have bound := (List.getElem?_eq_some_iff.1 found).1
    exact absurd ⟨low, by omega⟩ inside

theorem charAt_eq_error :
    charAt s i = .error e ↔ ¬ Inside s i ∧ e = .indexOutOfRange i s.toList.length := by
  by_cases inside : Inside s i
  · simp [charAt_of_inside inside, inside]
  · rw [charAt_of_outside inside, Except.error.injEq]
    exact ⟨fun same => ⟨inside, same.symm⟩, fun same => same.2.symm⟩

theorem codeAt_eq_error :
    codeAt s i = .error e ↔ ¬ Inside s i ∧ e = .indexOutOfRange i s.toList.length := by
  rw [← charAt_eq_error, codeAt]
  cases charAt s i <;> simp [Except.map]

theorem setChar_of_outside (outside : ¬ Inside s i) :
    setChar s i r = .error (.indexOutOfRange i s.toList.length) := by
  rw [setChar, position_of_outside outside]
  rfl

theorem setChar_of_nil (inside : Inside s i) (characters : r.toList = []) :
    setChar s i r = .error .emptyReplacement := by
  rw [setChar, position_of_inside inside, characters]
  rfl

theorem setChar_of_cons {rest : List Char} (inside : Inside s i)
    (characters : r.toList = c :: rest) :
    setChar s i r = .ok (String.ofList (s.toList.set i.toInt.toNat c)) := by
  rw [setChar, position_of_inside inside, characters]
  rfl

theorem setChar_eq_outOfRange :
    setChar s i r = .error (.indexOutOfRange i s.toList.length) ↔ ¬ Inside s i := by
  refine ⟨fun error inside => ?_, setChar_of_outside⟩
  cases characters : r.toList with
  | nil => cases (setChar_of_nil inside characters).symm.trans error
  | cons c rest => cases (setChar_of_cons inside characters).symm.trans error

theorem setChar_eq_empty (inside : Inside s i) :
    setChar s i r = .error .emptyReplacement ↔ r = "" := by
  cases characters : r.toList with
  | nil =>
    exact iff_of_true (setChar_of_nil inside characters) (String.toList_eq_nil_iff.1 characters)
  | cons c rest =>
    have nonempty : r ≠ "" := by
      rintro rfl
      cases characters
    simp [setChar_of_cons inside characters, nonempty]

theorem charAt_set (inside : Inside s i) (replaced : t.toList = s.toList.set i.toInt.toNat c) :
    charAt t i = .ok c ∧ ∀ j ≠ i, charAt t j = charAt s j := by
  have length : t.toList.length = s.toList.length := by rw [replaced, List.length_set]
  refine ⟨charAt_eq_ok.2 ⟨inside.1, ?_⟩, fun j other => ?_⟩
  · rw [replaced, List.getElem?_set_self inside.lt]
  · by_cases within : Inside s j
    · have apart : i.toInt.toNat ≠ j.toInt.toNat := fun same => by
        obtain ⟨low, -⟩ := inside
        obtain ⟨low', -⟩ := within
        exact other (Int64.toInt_inj.1 (by omega))
      rw [charAt_of_inside within, charAt_eq_ok, replaced, List.getElem?_set_ne apart]
      exact ⟨within.1, List.getElem?_eq_getElem within.lt⟩
    · have without : ¬ Inside t j := by rwa [Inside, length]
      rw [charAt_of_outside within, charAt_of_outside without, length]

theorem length_toList_le_bytes (s : String) : s.toList.length ≤ (Text.bytes s).length := by
  rw [Text.bytes]
  generalize s.toList = text
  induction text with
  | nil => exact Nat.le_refl 0
  | cons c text ih =>
    have some := List.length_pos_iff.2 (String.utf8EncodeChar_ne_nil (c := c))
    rw [List.flatMap_cons, List.length_append, List.length_cons]
    omega

theorem mapM_charAt (fits : s.toList.length < 2 ^ 63) (within : n ≤ s.toList.length) :
    (List.range n).mapM (fun k => charAt s (.ofNat k)) = .ok (s.toList.take n) := by
  induction n with
  | zero => rfl
  | succ n ih =>
    have index : (Int64.ofNat n).toInt = n := Int64.toInt_ofNat_of_lt (by omega)
    have last : charAt s (.ofNat n) = .ok s.toList[n] := by
      rw [charAt_eq_ok, index, Int.toNat_natCast]
      exact ⟨Int.natCast_nonneg n, List.getElem?_eq_getElem within⟩
    rw [List.range_succ, List.mapM_append, ih (by omega), List.mapM_cons, List.mapM_nil, last,
      ← List.take_append_getElem within]
    rfl

theorem isValidChar_toNat (c : Char) : c.toNat.isValidChar := c.valid

theorem toInt_ofNat_toNat (c : Char) : (Int64.ofNat c.toNat).toInt = c.toNat := by
  have scalar := isValidChar_toNat c
  exact Int64.toInt_ofNat_of_lt (by omega)

theorem charOfCode_ofNat (c : Char) : charOfCode (.ofNat c.toNat) = .ok c := by
  rw [charOfCode, toInt_ofNat_toNat, Int.toNat_natCast, Char.ofNat_toNat]
  exact if_pos ⟨Int.natCast_nonneg _, isValidChar_toNat c⟩

theorem charOfCode_eq_ok : charOfCode code = .ok c ↔ code = .ofNat c.toNat := by
  refine ⟨fun ok => ?_, fun same => same ▸ charOfCode_ofNat c⟩
  unfold charOfCode at ok
  split at ok
  · rename_i scalar
    obtain rfl := Except.ok.inj ok
    rw [← Int64.toInt_inj, toInt_ofNat_toNat, Text.toNat_ofNat_of_isValidChar scalar.2,
      Int.toNat_of_nonneg scalar.1]
  · cases ok

theorem exists_charOfCode :
    (∃ c, charOfCode code = .ok c) ↔
      0 ≤ code.toInt ∧ code.toInt ≤ 0xD7FF ∨ 0xE000 ≤ code.toInt ∧ code.toInt ≤ 0x10FFFF := by
  unfold charOfCode
  split <;> simp <;> omega

theorem codeAt_singleton (ok : charOfCode code = .ok c) :
    codeAt (String.singleton c) 0 = .ok code := by
  have first : charAt (String.singleton c) 0 = .ok c := by
    rw [charAt_eq_ok, String.toList_singleton]
    exact ⟨Int.le_refl 0, rfl⟩
  rw [codeAt, first, charOfCode_eq_ok.1 ok]
  rfl

theorem charOfCode_codeAt : (codeAt s i).bind charOfCode = charAt s i := by
  rw [codeAt]
  cases charAt s i with
  | error e => rfl
  | ok c => exact charOfCode_ofNat c

/-- The operators fail outside a string with the index and the number of characters. Inside, a
character and its code determine each other, all characters together are the string, and replacing
one of them leaves the others. The codes are the Unicode scalar values. -/
theorem characters_indexed (s r : String) (i code : Int64) :
    (∀ e, charAt s i = .error e ↔
      (i.toInt < 0 ∨ s.toList.length ≤ i.toInt) ∧ e = .indexOutOfRange i s.toList.length) ∧
    (∀ e, codeAt s i = .error e ↔
      (i.toInt < 0 ∨ s.toList.length ≤ i.toInt) ∧ e = .indexOutOfRange i s.toList.length) ∧
    (setChar s i r = .error (.indexOutOfRange i s.toList.length) ↔
      i.toInt < 0 ∨ s.toList.length ≤ i.toInt) ∧
    (0 ≤ i.toInt → i.toInt < s.toList.length →
      (setChar s i r = .error .emptyReplacement ↔ r = "") ∧
      ∀ c rest, r.toList = c :: rest →
        ∃ t, setChar s i r = .ok t ∧ t.toList.length = s.toList.length ∧ charAt t i = .ok c ∧
          ∀ j ≠ i, charAt t j = charAt s j) ∧
    (codeAt s i).bind charOfCode = charAt s i ∧
    ((Text.bytes s).length < 2 ^ 63 →
      ((List.range s.toList.length).mapM fun k => charAt s (.ofNat k)).map String.ofList =
        .ok s) ∧
    ((∃ c, charOfCode code = .ok c) ↔
      0 ≤ code.toInt ∧ code.toInt ≤ 0xD7FF ∨ 0xE000 ≤ code.toInt ∧ code.toInt ≤ 0x10FFFF) ∧
    ∀ c, charOfCode code = .ok c → codeAt (String.singleton c) 0 = .ok code := by
  have outside : (i.toInt < 0 ∨ s.toList.length ≤ i.toInt) ↔ ¬ Inside s i := by
    unfold Inside
    omega
  simp only [outside]
  refine ⟨fun e => charAt_eq_error, fun e => codeAt_eq_error, setChar_eq_outOfRange,
    fun low high => ⟨setChar_eq_empty ⟨low, high⟩, fun c rest characters => ?_⟩,
    charOfCode_codeAt, fun fits => ?_, exists_charOfCode, fun c => codeAt_singleton⟩
  · have inside : Inside s i := ⟨low, high⟩
    obtain ⟨placed, kept⟩ := charAt_set inside (String.toList_ofList (l := s.toList.set _ c))
    refine ⟨_, setChar_of_cons inside characters, ?_, placed, kept⟩
    rw [String.toList_ofList, List.length_set]
  · have length := length_toList_le_bytes s
    rw [mapM_charAt (by omega) (Nat.le_refl _), List.take_length]
    exact congrArg Except.ok String.ofList_toList

theorem characters_indexed_mixed :
    (∃ t, setChar "aé😀" 1 "žx" = .ok t ∧ t.toList.length = 3 ∧ charAt t 1 = .ok 'ž' ∧
      charAt t 2 = charAt "aé😀" 2) ∧
    ((List.range 3).mapM fun k => charAt "aé😀" (.ofNat k)).map String.ofList = .ok "aé😀" ∧
    codeAt (String.singleton '😀') 0 = .ok 0x1F600 := by
  obtain ⟨-, -, -, replaced, -, whole, -, code⟩ := characters_indexed "aé😀" "žx" 1 0x1F600
  obtain ⟨t, result, length, placed, kept⟩ :=
    (replaced (by decide) (by decide)).2 'ž' ['x'] (by decide)
  exact ⟨⟨t, result, length, placed, kept 2 (by decide)⟩, whole (by decide), code '😀' rfl⟩

end IppCode
