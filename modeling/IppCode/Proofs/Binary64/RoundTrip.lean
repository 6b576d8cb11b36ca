import IppCode.Proofs.Binary64.Spelling

/-!
# Numbers read back from their text

The written form of a finite number is the text of a numeral (`write_eq_text`), which is a text in
hexadecimal form (`Proper.spells`) and leads to the number without any rounding
(`exactly?_written`). So every number that is not a NaN is read back bit by bit
(`hexadecimal_lossless`).
-/

namespace IppCode.Binary64.Hexadecimal

open Text

variable {x : Binary64} {numeral : Numeral} {c : Char} {m n : Nat}

namespace Numeral

def exponentText (numeral : Numeral) : List Char :=
  (if numeral.exponent < 0 then '-' else '+') :: Nat.toDigits 10 numeral.exponent.natAbs

def body (numeral : Numeral) : List Char :=
  (numeral.whole ++ '.' :: numeral.places) ++ 'p' :: numeral.exponentText

def text (numeral : Numeral) : List Char :=
  (if numeral.negative then ['-'] else []) ++ '0' :: 'x' :: numeral.body

structure Proper (numeral : Numeral) : Prop where
  whole : ∀ c ∈ numeral.whole, hexDigitValue? c ≠ none
  places : ∀ c ∈ numeral.places, hexDigitValue? c ≠ none
  nonempty : numeral.whole ≠ []
  range : leastExponent ≤ numeral.exponent ∧ numeral.exponent ≤ greatestExponent

theorem exponentText_spelt (numeral : Numeral) :
    ExponentText true numeral.exponent ('p' :: numeral.exponentText) := by
  have value : decimalValue (Nat.toDigits 10 numeral.exponent.natAbs) = numeral.exponent.natAbs :=
    Nat.ofDigitChars_ten_toDigits
  have decimal : ∀ c ∈ Nat.toDigits 10 numeral.exponent.natAbs, c.isDigit = true :=
    fun _ => isDigit_of_mem_toDigits
  unfold exponentText
  split
  · have text : ExponentText true _ _ := .present (.inl rfl) .minus Nat.toDigits_ne_nil decimal
    have exponent : -(numeral.exponent.natAbs : Int) = numeral.exponent := by omega
    rwa [value, if_pos rfl, exponent] at text
  · have text : ExponentText true _ _ := .present (.inl rfl) .plus Nat.toDigits_ne_nil decimal
    have exponent : (numeral.exponent.natAbs : Int) = numeral.exponent := by omega
    rwa [value, if_neg Bool.false_ne_true, exponent] at text

theorem Proper.spells (proper : numeral.Proper) : Spells numeral numeral.text := by
  have sign : SignText numeral.negative (if numeral.negative then ['-'] else []) := by
    cases numeral.negative
    · exact .missing
    · exact .minus
  exact ⟨⟨true, _, _, _, _, rfl, sign, .lower, .pointed _ _, numeral.exponentText_spelt⟩,
    proper.whole, proper.places, .inl proper.nonempty, proper.range⟩

end Numeral

def written (x : Binary64) : Numeral :=
  if x.isZero then ⟨x.negative, ['0'], ['0'], 0⟩
  else if x.biasedExponent = 0 then ⟨x.negative, ['0'], hexDigits 13 x.fraction, -1022⟩
  else ⟨x.negative, ['1'], hexDigits 13 x.fraction, x.biasedExponent - 1023⟩

theorem write_eq_text (finite : x.isFinite = true) : write x = (written x).text := by
  simp only [write, written, isNaN_of_finite finite, isInfinite_of_finite finite,
    Bool.false_eq_true, if_false]
  by_cases zero : x.isZero = true
  · simp [zero, Numeral.text, Numeral.body, Numeral.exponentText]
  · by_cases subnormal : x.biasedExponent = 0
    · simp [zero, subnormal, Numeral.text, Numeral.body, Numeral.exponentText]
    · simp [zero, subnormal, Numeral.text, Numeral.body, Numeral.exponentText]

def size (x : Binary64) : Binary64 := ⟨false, x.magnitude, x.magnitude_lt⟩

theorem isUnits_size (finite : x.isFinite = true) : IsUnits (size x) x.units :=
  ⟨finite, rfl, rfl⟩

theorem neg_size : (if x.negative then (size x).neg else size x) = x := by
  cases sign : x.negative with
  | false => exact ext sign.symm rfl
  | true => exact ext sign.symm rfl

theorem exactly?_significand (negative : Bool) (lead : Char) {fraction d : Nat} {z : Binary64}
    (digit : hexValue? 0 [lead] = some m) (single : m ≤ 1) (small : fraction < leadingBit)
    (result : IsUnits z ((m * leadingBit + fraction) * 2 ^ d)) :
    Numeral.exactly? ⟨negative, [lead], hexDigits 13 fraction, d - 1022⟩ =
      some (if negative then z.neg else z) := by
  have width : leadingBit = 16 ^ 13 := by norm_num [leadingBit]
  have short : Short (m * 16 ^ 13 + fraction) := .of_lt (by rw [width] at small; omega)
  refine Numeral.exactly?_eq (b := 1022) (d := d) digit (hexValue?_hexDigits m (width ▸ small))
    short (lt_power (by omega) (by decide)) ?_ (width ▸ result) ?_ rfl
  · rw [length_hexDigits]
    decide
  · rw [length_hexDigits, mul_assoc, ← pow_add]
    congr 2

theorem exactly?_written (finite : x.isFinite = true) : (written x).exactly? = some x := by
  obtain ⟨c, d, significand, normal, -, magnitude⟩ := exists_significand finite
  have value := isUnits_size finite
  have biased := biasedExponent_eq significand normal magnitude
  have fraction := fraction_eq significand normal magnitude
  rw [written]
  by_cases zero : x.isZero = true
  · rw [(isZero_iff finite).1 zero] at value
    have read : Numeral.exactly? ⟨x.negative, ['0'], ['0'], 0⟩ = _ :=
      Numeral.exactly?_eq (m := 0) (b := 0) (d := 0) rfl rfl (.of_lt (by decide))
        (lt_power (by decide) (by decide)) (by simp) value (by simp) rfl
    rw [if_pos zero]
    exact read.trans (congrArg some neg_size)
  · rw [units_eq significand normal magnitude] at value
    rw [if_neg zero, biased, fraction]
    by_cases small : c < leadingBit
    · have least : d = 0 := normal.resolve_right (not_le.2 small)
      have read := exactly?_significand x.negative '0' (m := 0) rfl (Nat.zero_le 1) small
        (by rwa [Nat.zero_mul, Nat.zero_add])
      have exponent : (d : Int) - 1022 = -1022 := by omega
      rw [exponent] at read
      rw [if_pos small, if_pos small, if_pos rfl]
      exact read.trans (congrArg some neg_size)
    · have below : c - leadingBit < leadingBit := by omega
      have read := exactly?_significand x.negative '1' (m := 1) rfl le_rfl below
        (by rwa [one_mul, Nat.add_sub_cancel' (not_lt.1 small)])
      have exponent : (d : Int) - 1022 = (d + 1 : Nat) - 1023 := by omega
      rw [exponent] at read
      rw [if_neg small, if_neg small, if_neg (Nat.succ_ne_zero d)]
      exact read.trans (congrArg some neg_size)

theorem proper_written (finite : x.isFinite = true) : (written x).Proper := by
  have bound := below_infinity finite
  have biased : x.biasedExponent ≤ 2046 := by
    simp only [biasedExponent, leadingBit, infinityMagnitude] at *
    omega
  have range {e : Int} (low : -1022 ≤ e) (high : e ≤ 1023) :
      leastExponent ≤ e ∧ e ≤ greatestExponent := by
    have lowest : leastExponent = -2147483648 := rfl
    have highest : greatestExponent = 2147483647 := rfl
    omega
  have zero : ∀ c ∈ ['0'], hexDigitValue? c ≠ none :=
    List.forall_mem_singleton.2 (by decide)
  have one : ∀ c ∈ ['1'], hexDigitValue? c ≠ none :=
    List.forall_mem_singleton.2 (by decide)
  have fraction : ∀ c ∈ hexDigits 13 x.fraction, hexDigitValue? c ≠ none :=
    fun _ => isHexDigit_of_mem_hexDigits
  unfold written
  split
  · exact ⟨zero, zero, by simp, range (e := 0) (by decide) (by decide)⟩
  · split
    · exact ⟨zero, fraction, by simp, range (e := -1022) (by decide) (by decide)⟩
    · exact ⟨one, fraction, by simp, range (e := x.biasedExponent - 1023) (by omega) (by omega)⟩

theorem readExactly?_write (finite : x.isFinite = true) : readExactly? (write x) = some x := by
  rw [readExactly?, write_eq_text finite, numeral?_of_spells (proper_written finite).spells,
    Option.bind_some, exactly?_written finite]

theorem Numeral.decimal_read?_text (numeral : Numeral) : Decimal.read? numeral.text = none :=
  Decimal.read?_eq_none (.inl rfl) (by simp [text] : 'x' ∈ numeral.text)

theorem isInfinite_or_isFinite (proper : x.isNaN = false) :
    x = infinity x.negative ∨ x.isFinite = true := by
  have bound : x.magnitude ≤ infinityMagnitude := not_lt.1 (of_decide_eq_false proper)
  rcases bound.eq_or_lt with infinite | finite
  · exact .inl (ext rfl infinite)
  · exact .inr (decide_eq_true finite)

theorem plain_write (x : Binary64) : Plain (write x) := by
  by_cases nan : x.isNaN = true
  · rw [write, if_pos nan]
    decide
  · rcases isInfinite_or_isFinite (Bool.not_eq_true _ ▸ nan) with infinite | finite
    · rw [infinite]
      cases x.negative <;> decide
    · rw [write_eq_text finite]
      exact (proper_written finite).spells.plain

theorem read?_write (proper : x.isNaN = false) : Binary64.read? (write x) = some x := by
  rw [Binary64.read?, trim_eq_self (plain_write x).unblank]
  rcases isInfinite_or_isFinite proper with infinite | finite
  · rw [infinite]
    cases x.negative <;> rfl
  · rw [write_eq_text finite, Numeral.decimal_read?_text, ← write_eq_text finite]
    exact read?_of_readExactly? (readExactly?_write finite)

theorem toBits_ofBits (bits : UInt64) : toBits (ofBits bits) = bits := by
  have width : bits.toNat < 2 * signBit := bits.toNat_lt
  rw [← UInt64.toNat_inj, toBits, UInt64.toNat_ofNat', ofBits]
  have unit : signBit = 0x8000000000000000 := rfl
  by_cases negative : signBit ≤ bits.toNat
  · simp only [negative, decide_true, if_true]
    rw [unit] at negative ⊢
    omega
  · simp only [negative, decide_false, Bool.false_eq_true, if_false]
    rw [unit] at negative ⊢
    omega

/-- Every number but NaNs is read back from its written form bit by bit, and what is read of a
finite number comes from its numeral by operations of which none rounds. -/
theorem hexadecimal_lossless (bits : UInt64) (proper : (ofBits bits).isNaN = false) :
    (Binary64.read? (write (ofBits bits))).map toBits = some bits ∧
      ((ofBits bits).isFinite = true →
        Decimal.read? (write (ofBits bits)) = none ∧
        readExactly? (write (ofBits bits)) = some (ofBits bits)) := by
  refine ⟨?_, fun finite => ⟨?_, readExactly?_write finite⟩⟩
  · rw [read?_write proper, Option.map_some, toBits_ofBits]
  · rw [write_eq_text finite, Numeral.decimal_read?_text]

theorem hexadecimal_lossless_subnormal :
    (Binary64.read? (write (ofBits 0x800FFFFFFFFFFFFF))).map toBits = some 0x800FFFFFFFFFFFFF ∧
      readExactly? (write (ofBits 0x800FFFFFFFFFFFFF)) = some (ofBits 0x800FFFFFFFFFFFFF) := by
  have ⟨read, exact⟩ := hexadecimal_lossless 0x800FFFFFFFFFFFFF (by decide)
  exact ⟨read, (exact (by decide)).2⟩

end IppCode.Binary64.Hexadecimal
