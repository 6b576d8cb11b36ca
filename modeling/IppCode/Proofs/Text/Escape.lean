import IppCode.Proofs.Text.Numeral
import IppCode.Text.Escape

/-!
# Escaped text

Encoding is undone by decoding (`decode?_encode`), leaves neither blanks below 33 nor comment marks
(`of_mem_encode`), and writes a backslash only at the beginning of an escape (`backslash_encode`).
-/

namespace IppCode.Text.Escape

variable {c d : Char} {text before after rest : List Char}

theorem isDigit_of_mem_threeDigits {code : Nat} (digit : d ∈ threeDigits code) :
    d.isDigit = true := by
  have small (n : Nat) : n % 10 < 10 := Nat.mod_lt n (by decide)
  simp only [threeDigits, List.mem_cons, List.not_mem_nil, or_false] at digit
  rcases digit with rfl | rfl | rfl <;> simp [Nat.isDigit_digitChar, small]

theorem natural?_threeDigits {code : Nat} (small : code < 1000) :
    natural? (threeDigits code) = some code := by
  have digit (n : Nat) : digitValue (n % 10).digitChar = n % 10 :=
    digitValue_digitChar (Nat.mod_lt n (by decide))
  have value : decimalValue (threeDigits code) = code := by
    simp only [decimalValue, threeDigits, List.foldl_cons, List.foldl_nil, digit]
    omega
  rw [natural?_of_digits (by simp [threeDigits]) fun _ => isDigit_of_mem_threeDigits, value]

theorem toNat_lt_of_needed (escaped : needed c = true) : c.toNat < 1000 := by
  simp only [needed, Bool.or_eq_true, decide_eq_true_eq, beq_iff_eq] at escaped
  rcases escaped with (low | rfl) | rfl
  · omega
  · decide
  · decide

theorem of_not_needed (kept : needed c = false) : 32 < c.toNat ∧ c ≠ '#' ∧ c ≠ '\\' := by
  simpa [needed, and_assoc] using kept

theorem decode?_escape {a b : Char} (read : natural? [a, b, c] = some d.toNat) :
    decode? ('\\' :: a :: b :: c :: rest) = (decode? rest).map (d :: ·) := by
  simp only [decode?, read, Option.bind_eq_bind, Option.bind_some, Char.ofNat_toNat]
  cases decode? rest <;> rfl

theorem decode?_cons (proper : c ≠ '\\') : decode? (c :: rest) = (decode? rest).map (c :: ·) := by
  rw [decode?.eq_3 _ _ fun _ _ _ _ escape => absurd escape proper, if_neg proper]

theorem decode?_encodeChar (c : Char) (rest : List Char) :
    decode? (encodeChar c ++ rest) = (decode? rest).map (c :: ·) := by
  unfold encodeChar
  split
  · rename_i escaped
    exact decode?_escape (natural?_threeDigits (toNat_lt_of_needed escaped))
  · rename_i kept
    exact decode?_cons (of_not_needed (Bool.not_eq_true _ ▸ kept)).2.2

theorem encode_cons (c : Char) (text : List Char) :
    encode (c :: text) = encodeChar c ++ encode text := List.flatMap_cons

theorem decode?_encode (text : List Char) : decode? (encode text) = some text := by
  induction text with
  | nil => rfl
  | cons c text ih => rw [encode_cons, decode?_encodeChar, ih, Option.map_some]

theorem of_mem_encodeChar (inside : d ∈ encodeChar c) : 32 < d.toNat ∧ d ≠ '#' := by
  unfold encodeChar at inside
  split at inside
  · rcases List.mem_cons.1 inside with rfl | digit
    · decide
    · have ⟨low, high⟩ := toNat_of_isDigit (isDigit_of_mem_threeDigits digit)
      exact ⟨by omega, by rintro rfl; contradiction⟩
  · rename_i kept
    obtain rfl := List.mem_singleton.1 inside
    have ⟨printable, bare, _⟩ := of_not_needed (Bool.not_eq_true _ ▸ kept)
    exact ⟨printable, bare⟩

theorem of_mem_encode (inside : d ∈ encode text) : 32 < d.toNat ∧ d ≠ '#' := by
  obtain ⟨c, -, written⟩ := List.mem_flatMap.1 inside
  exact of_mem_encodeChar written

theorem backslash_encodeChar (split : encodeChar c = before ++ '\\' :: after) :
    needed c = true ∧ before = [] ∧ after = threeDigits c.toNat := by
  unfold encodeChar at split
  split at split
  · rename_i escaped
    cases before with
    | nil => exact ⟨escaped, rfl, (List.cons.inj split).2.symm⟩
    | cons first before =>
      have digits := (List.cons.inj split).2
      have digit : '\\' ∈ threeDigits c.toNat := by simp [digits]
      cases isDigit_of_mem_threeDigits digit
  · rename_i kept
    have proper := (of_not_needed (Bool.not_eq_true _ ▸ kept)).2.2
    have inside : '\\' ∈ [c] := by simp [split]
    exact absurd (List.mem_singleton.1 inside).symm proper

/-- A backslash in an encoded text begins the escape of the character that stands at its place. -/
theorem backslash_encode (split : encode text = before ++ '\\' :: after) :
    ∃ front c back, text = front ++ c :: back ∧ needed c = true ∧
      before = encode front ∧ after = threeDigits c.toNat ++ encode back := by
  induction text generalizing before with
  | nil =>
    have empty : ([] : List Char) = before ++ '\\' :: after := split
    simp at empty
  | cons c text ih =>
    have later {before : List Char} (split : encode text = before ++ '\\' :: after) :
        ∃ front d back, c :: text = front ++ d :: back ∧ needed d = true ∧
          encodeChar c ++ before = encode front ∧ after = threeDigits d.toNat ++ encode back := by
      obtain ⟨front, d, back, rfl, escaped, rfl, rfl⟩ := ih split
      exact ⟨c :: front, d, back, rfl, escaped, (encode_cons c front).symm, rfl⟩
    rw [encode_cons] at split
    rcases List.append_eq_append_iff.1 split with ⟨tail, rfl, behind⟩ | ⟨tail, here, behind⟩
    · exact later behind
    · cases tail with
      | nil =>
        rw [List.append_nil] at here
        simpa [here] using later (show encode text = [] ++ '\\' :: after from behind.symm)
      | cons mark tail =>
        obtain ⟨rfl, rfl⟩ := List.cons.inj behind
        obtain ⟨escaped, rfl, rfl⟩ := backslash_encodeChar here
        exact ⟨[], c, text, rfl, escaped, rfl, rfl⟩

end IppCode.Text.Escape
