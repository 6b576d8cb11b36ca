import IppCode.Machine.Operand
import IppCode.Proofs.Binary64.Nearest

/-!
# Whole parts

The conversion of a float to an integer compares floats with the bounds of 64 bits, of which the
upper one is not a float. It gives the whole part of the number just if that is within the bounds,
also of a float that an integer was rounded to (`whole_parts_exact`).
-/

namespace IppCode.Binary64

variable {x z : Binary64} {n : Nat} {i : Int}

theorem exists_isUnits_whole (finite : x.isFinite = true) :
    ∃ z, IsUnits z (x.units / one * one) := by
  obtain ⟨c, d, significand, normal, range, magnitude⟩ := exists_significand finite
  have units := units_eq significand normal magnitude
  rcases Nat.le_total binaryPlaces d with whole | parts
  · obtain ⟨k, rfl⟩ := Nat.exists_eq_add_of_le whole
    have exact : x.units / one * one = x.units := by
      refine Nat.div_mul_cancel ⟨c * 2 ^ k, ?_⟩
      rw [units, one_eq, pow_add]
      ring
    rw [exact, units]
    exact exists_isUnits_normal significand normal range
  · obtain ⟨k, places⟩ := Nat.exists_eq_add_of_le parts
    have quotient : x.units / one = c / 2 ^ k := by
      rw [units, one_eq, places, pow_add, mul_comm (2 ^ d),
        Nat.mul_div_mul_right _ _ (Nat.two_pow_pos d)]
    rw [quotient, one_eq]
    refine exists_isUnits_le (lt_of_le_of_lt (Nat.div_le_self c _) significand) ?_
    rw [binaryPlaces_eq]
    decide

theorem truncate_of_finite (finite : x.isFinite = true) :
    (truncate x).isFinite = true ∧ (truncate x).signedUnits = x.signedUnits.tdiv one * one := by
  obtain ⟨z, value⟩ := exists_isUnits_whole finite
  obtain ⟨whole, units⟩ :=
    finite_ofRatio_of_isUnits x.negative value Nat.one_pos (mul_one _).symm
  rw [truncate, if_pos finite]
  refine ⟨whole, ?_⟩
  rw [signedUnits, signedUnits, units, negative_ofRatio]
  generalize one = k
  cases x.negative
  · rw [if_neg Bool.false_ne_true, if_neg Bool.false_ne_true]
    rfl
  · rw [if_pos rfl, if_pos rfl, Int.neg_tdiv, Int.neg_mul]
    rfl

theorem ofInt_of_isUnits (value : IsUnits z (i.natAbs * one)) :
    (ofInt i).isFinite = true ∧ (ofInt i).signedUnits = i * one := by
  obtain ⟨finite, units⟩ :=
    finite_ofRatio_of_isUnits (decide (i < 0)) value Nat.one_pos (mul_one _).symm
  refine ⟨finite, ?_⟩
  rw [signedUnits, ofInt, units, negative_ofRatio, Nat.cast_mul]
  by_cases sign : i < 0
  · rw [if_pos (decide_eq_true sign), Int.ofNat_natAbs_of_nonpos sign.le, Int.neg_mul, Int.neg_neg]
  · rw [if_neg (by simpa using sign), Int.natAbs_of_nonneg (not_lt.1 sign)]

theorem ofInt_of_significand {c d : Nat} (size : i.natAbs = c * 2 ^ d) (significand : c < 2 ^ 53)
    (range : d ≤ 63) : (ofInt i).isFinite = true ∧ (ofInt i).signedUnits = i * one := by
  obtain ⟨z, value⟩ := exists_isUnits_le (d := d + binaryPlaces) significand
    (by rw [binaryPlaces_eq]; omega)
  have units : c * 2 ^ (d + binaryPlaces) = i.natAbs * one := by
    rw [size, one_eq, pow_add, mul_assoc]
  exact ofInt_of_isUnits (units ▸ value)

theorem ofInt_lowest :
    (ofInt (-2 ^ 63)).isFinite = true ∧ (ofInt (-2 ^ 63)).signedUnits = -2 ^ 63 * one :=
  ofInt_of_significand (c := 1) (d := 63) rfl (by decide) le_rfl

theorem ofInt_beyond :
    (ofInt (2 ^ 63)).isFinite = true ∧ (ofInt (2 ^ 63)).signedUnits = 2 ^ 63 * one :=
  ofInt_of_significand (c := 1) (d := 63) rfl (by decide) le_rfl

theorem ofInt_greatest : ofInt Int64.maxValue.toInt = ofInt (2 ^ 63) := by
  decide +kernel

theorem toInt64_of_fits {n : Int} (finite : x.isFinite = true) (value : x.signedUnits = n * one)
    (low : -2 ^ 63 ≤ n) (high : n < 2 ^ 63) : x.toInt64 = .ofInt n := by
  have quotient : (n * one).tdiv one = n := Int.mul_tdiv_cancel n (by exact_mod_cast one_pos.ne')
  have least : Int64.minValue.toInt = -2 ^ 63 := rfl
  have greatest : Int64.maxValue.toInt = 2 ^ 63 - 1 := rfl
  rw [toInt64, isNaN_of_finite finite, isInfinite_of_finite finite, if_neg Bool.false_ne_true,
    if_neg Bool.false_ne_true, value, quotient, least, greatest]
  congr 1
  omega

end IppCode.Binary64

namespace IppCode

open Binary64

variable {x : Binary64} {i : Int64}

theorem isLT_compare_mul {a b k : Int} (positive : 0 < k) :
    (compare (a * k) (b * k)).isLT = true ↔ a < b := by
  rw [Ordering.isLT_iff_eq_lt, Int.compare_eq_lt, Int.mul_lt_mul_right positive]

theorem isGE_compare_mul {a b k : Int} (positive : 0 < k) :
    (compare (a * k) (b * k)).isGE = true ↔ b ≤ a := by
  rw [Int.isGE_compare, Int.mul_le_mul_right positive]

theorem floatToInt_of_finite (finite : x.isFinite = true) :
    floatToInt x =
      if -2 ^ 63 ≤ x.signedUnits.tdiv one ∧ x.signedUnits.tdiv one < 2 ^ 63 then
        .ok (.ofInt (x.signedUnits.tdiv one))
      else .error (.notRepresentable x) := by
  obtain ⟨whole, value⟩ := truncate_of_finite finite
  obtain ⟨low, least⟩ := ofInt_lowest
  obtain ⟨high, greatest⟩ := ofInt_beyond
  have unit : (0 : Int) < one := by exact_mod_cast one_pos
  have bound : Int64.minValue.toInt = -2 ^ 63 := rfl
  simp only [floatToInt, ofInt_greatest, whole, compare?_eq whole low, compare?_eq whole high,
    value, least, greatest, Option.any_some, Bool.not_true, Bool.false_or, Bool.or_eq_true,
    isLT_compare_mul unit, isGE_compare_mul unit, bound]
  by_cases fits : -2 ^ 63 ≤ x.signedUnits.tdiv one ∧ x.signedUnits.tdiv one < 2 ^ 63
  · rw [if_neg (by omega), if_pos fits, toInt64_of_fits whole value fits.1 fits.2]
  · rw [if_pos (by omega), if_neg fits]

theorem floatToInt_of_not_finite (infinite : x.isFinite = false) :
    floatToInt x = .error (.notRepresentable x) := by
  simp [floatToInt, truncate, infinite]

def towardZero (q : ℚ) : Int := if q < 0 then ⌈q⌉ else ⌊q⌋

theorem towardZero_toRat (x : Binary64) : towardZero x.toRat = x.signedUnits.tdiv one := by
  have unit : (0 : ℚ) < one := by exact_mod_cast one_pos
  rw [toRat_eq, towardZero]
  generalize x.signedUnits = u
  split
  · rename_i negative
    have negative : u ≤ 0 := by
      by_contra positive
      have positive : (0 : ℚ) < u := by exact_mod_cast not_le.1 positive
      exact absurd negative (not_lt.2 (div_pos positive unit).le)
    rw [← neg_neg ((u : ℚ) / one), Int.ceil_neg, ← neg_div, ← Int.cast_neg,
      Rat.floor_intCast_div_natCast, ← Int.tdiv_eq_ediv_of_nonneg (by omega), Int.neg_tdiv, neg_neg]
  · rename_i positive
    have positive : 0 ≤ u := by
      by_contra negative
      have negative : (u : ℚ) < 0 := by exact_mod_cast not_le.1 negative
      exact positive (div_neg_of_neg_of_pos negative unit)
    rw [Rat.floor_intCast_div_natCast, Int.tdiv_eq_ediv_of_nonneg positive]

theorem toRat_of_whole {m : Int} (value : x.signedUnits = m * one) : x.toRat = m := by
  have unit : (one : ℚ) ≠ 0 := cast_one_pos.ne'
  rw [toRat_eq, value, Int.cast_mul, Int.cast_natCast, mul_div_cancel_right₀ _ unit]

theorem floatToInt_of_whole {m : Int} (finite : x.isFinite = true)
    (value : x.signedUnits = m * one) :
    floatToInt x = if -2 ^ 63 ≤ m ∧ m < 2 ^ 63 then .ok (.ofInt m)
      else .error (.notRepresentable x) := by
  have quotient : (m * one).tdiv one = m := Int.mul_tdiv_cancel m (by exact_mod_cast one_pos.ne')
  rw [floatToInt_of_finite finite, value, quotient]

theorem isFinite_ofInt {m : Int} (small : m.natAbs ≤ 2 ^ 63) : (ofInt m).isFinite = true := by
  apply isFinite_ofRatio
  rw [Nat.div_one]
  by_cases zero : m.natAbs * one = 0
  · rw [zero]
    decide
  · rw [Nat.log2_lt zero, one_eq]
    calc m.natAbs * 2 ^ binaryPlaces
      _ ≤ 2 ^ 63 * 2 ^ binaryPlaces := Nat.mul_le_mul_right _ small
      _ = 2 ^ (63 + binaryPlaces) := (pow_add 2 63 binaryPlaces).symm
      _ < 2 ^ 2097 := Nat.pow_lt_pow_right (by decide) (by rw [binaryPlaces_eq]; decide)

theorem nearest_ofInt {m : Int} (small : m.natAbs ≤ 2 ^ 63) : Nearest (ofInt m) m := by
  have nearest := nearest_ofRatio (decide (m < 0)) Nat.one_pos (isFinite_ofInt small)
  have unit : (one : ℚ) ≠ 0 := cast_one_pos.ne'
  have size : signOf (decide (m < 0)) * ((m.natAbs : Int) : ℚ) = m := by
    by_cases sign : m < 0
    · rw [Int.ofNat_natAbs_of_nonpos sign.le, decide_eq_true sign]
      simp [signOf]
    · rw [Int.natAbs_of_nonneg (not_lt.1 sign), decide_eq_false sign]
      simp [signOf]
  have value : signOf (decide (m < 0)) * (((m.natAbs * one : Nat) : ℚ) / (1 : Nat)) / one = m := by
    rw [Int.cast_natCast] at size
    rw [Nat.cast_one, div_one, Nat.cast_mul, ← mul_assoc, mul_div_cancel_right₀ _ unit, size]
  rwa [value] at nearest

theorem ofInt_of_small {m : Int} (small : m.natAbs ≤ 2 ^ 53) :
    (ofInt m).signedUnits = m * one := by
  rcases small.lt_or_eq with less | greatest
  · exact (ofInt_of_significand (mul_one _).symm less (Nat.zero_le 63)).2
  · exact (ofInt_of_significand (c := 1) (greatest.trans (one_mul _).symm) (by decide) (by decide)).2

/-- An integer is rounded to an integer. A significand that does not hold all of it ends above the
places after the point. -/
theorem exists_whole_ofInt {m : Int} (small : m.natAbs ≤ 2 ^ 63) :
    ∃ n : Int, (ofInt m).signedUnits = n * one := by
  have whole : ∃ n, (ofInt m).units = n * one := by
    obtain ⟨s, -, -, units, -⟩ := exists_rounding (decide (m < 0)) (isFinite_ofInt small)
    rw [one_mul] at units
    rw [ofInt, units]
    rcases Nat.le_total binaryPlaces s with above | below
    · obtain ⟨k, rfl⟩ := Nat.exists_eq_add_of_le above
      refine ⟨roundQuotient (m.natAbs * one) (2 ^ (binaryPlaces + k)) * 2 ^ k, ?_⟩
      rw [mul_assoc, one_eq, ← pow_add, Nat.add_comm]
    · obtain ⟨k, places⟩ := Nat.exists_eq_add_of_le below
      have exact : m.natAbs * one = m.natAbs * 2 ^ k * 2 ^ s := by
        rw [one_eq, places, pow_add]
        ring
      exact ⟨m.natAbs, by rw [exact, roundQuotient_mul (Nat.two_pow_pos s)]⟩
  obtain ⟨n, units⟩ := whole
  rw [signedUnits, units]
  split
  · exact ⟨-n, by rw [Nat.cast_mul, Int.neg_mul]⟩
  · exact ⟨n, Nat.cast_mul n one⟩

theorem exists_rounded (i : Int64) :
    ∃ m : Int, (ofInt i.toInt).signedUnits = m * one ∧ -2 ^ 63 ≤ m ∧ m ≤ 2 ^ 63 := by
  have least := Int64.le_toInt i
  have greatest := Int64.toInt_lt i
  have small : i.toInt.natAbs ≤ 2 ^ 63 := by omega
  obtain ⟨m, value⟩ := exists_whole_ofInt small
  obtain ⟨low, lowValue⟩ := ofInt_lowest
  obtain ⟨high, highValue⟩ := ofInt_beyond
  have between : (ofInt (-2 ^ 63)).toRat ≤ (ofInt i.toInt).toRat ∧
      (ofInt i.toInt).toRat ≤ (ofInt (2 ^ 63)).toRat := by
    refine (nearest_ofInt small).between low high ?_ ?_
    · rw [toRat_of_whole lowValue]
      exact_mod_cast least
    · rw [toRat_of_whole highValue]
      exact_mod_cast greatest.le
  rw [toRat_of_whole lowValue, toRat_of_whole value, toRat_of_whole highValue] at between
  exact ⟨m, value, by exact_mod_cast between.1, by exact_mod_cast between.2⟩

/-- A float has an integer just if its whole part is one of 64 bits, which it then is. Integers
become floats by rounding, and again integers that are the same up to `2 ^ 53`. Above, they come
back rounded, and those that are rounded to `2 ^ 63` do not. -/
theorem whole_parts_exact (x : Binary64) (i : Int64) (o o' : Opcode) :
    (x.isFinite = true ∧ -2 ^ 63 ≤ towardZero x.toRat ∧ towardZero x.toRat < 2 ^ 63 →
      ∃ n, floatToInt x = .ok n ∧ n.toInt = towardZero x.toRat) ∧
    (¬ (x.isFinite = true ∧ -2 ^ 63 ≤ towardZero x.toRat ∧ towardZero x.toRat < 2 ^ 63) →
      floatToInt x = .error (.notRepresentable x)) ∧
    (|i.toInt| ≤ 2 ^ 53 →
      (UnaryOp.intToFloat.apply o (.int i)).bind (UnaryOp.floatToInt.apply o') = .ok (.int i)) ∧
    ∃ f, UnaryOp.intToFloat.apply o (.int i) = .ok (.float f) ∧ Nearest f i.toInt ∧
      ∃ m : Int, f.toRat = m ∧
        (m ≠ 2 ^ 63 → ∃ n, UnaryOp.floatToInt.apply o' (.float f) = .ok (.int n) ∧ n.toInt = m) ∧
        (m = 2 ^ 63 → UnaryOp.floatToInt.apply o' (.float f) =
          .error (.operator o' (.notRepresentable f))) := by
  have back (f : Binary64) :
      UnaryOp.floatToInt.apply o' (.float f) = (asFault o' (floatToInt f)).map .int := rfl
  have forth : UnaryOp.intToFloat.apply o (.int i) = .ok (.float (ofInt i.toInt)) := rfl
  have low := Int64.le_toInt i
  have high := Int64.toInt_lt i
  have small : i.toInt.natAbs ≤ 2 ^ 63 := by omega
  have finite := isFinite_ofInt small
  refine ⟨fun ⟨finite, low, high⟩ => ?_, fun misfit => ?_, fun exact => ?_, ?_⟩
  · rw [towardZero_toRat] at low high ⊢
    rw [floatToInt_of_finite finite, if_pos ⟨low, high⟩]
    exact ⟨_, rfl, Int64.toInt_ofInt_of_le low high⟩
  · cases finite : x.isFinite with
    | true =>
      rw [towardZero_toRat] at misfit
      rw [floatToInt_of_finite finite, if_neg fun fits => misfit ⟨finite, fits⟩]
    | false => exact floatToInt_of_not_finite finite
  · have value := ofInt_of_small (m := i.toInt) (by rw [Int.abs_eq_natAbs] at exact; omega)
    rw [forth, Except.bind, back, floatToInt_of_whole finite value, if_pos ⟨low, high⟩,
      Int64.ofInt_toInt]
    rfl
  · obtain ⟨m, value, low, high⟩ := exists_rounded i
    refine ⟨ofInt i.toInt, forth, nearest_ofInt small, m, toRat_of_whole value, fun fits => ?_,
      fun overflow => ?_⟩
    · have high : m < 2 ^ 63 := lt_of_le_of_ne high fits
      refine ⟨.ofInt m, ?_, Int64.toInt_ofInt_of_le low high⟩
      rw [back, floatToInt_of_whole finite value, if_pos ⟨low, high⟩]
      rfl
    · rw [back, floatToInt_of_whole finite value, if_neg (by omega)]
      rfl

theorem whole_parts_exact_bounds :
    (∃ n, floatToInt (ofBits 0x43DFFFFFFFFFFFFF) = .ok n ∧ n.toInt = 0x7FFFFFFFFFFFFC00) ∧
      ∀ o o', (UnaryOp.intToFloat.apply o (.int (-0x20000000000000))).bind
        (UnaryOp.floatToInt.apply o') = .ok (.int (-0x20000000000000)) := by
  have whole : towardZero (ofBits 0x43DFFFFFFFFFFFFF).toRat = 0x7FFFFFFFFFFFFC00 := by
    rw [towardZero_toRat]
    decide +kernel
  refine ⟨?_, fun o o' => ?_⟩
  · have result := (whole_parts_exact (ofBits 0x43DFFFFFFFFFFFFF) 0 .clear .clear).1
    rw [whole] at result
    exact result ⟨by decide, by decide, by decide⟩
  · exact (whole_parts_exact (ofBits 0) (-0x20000000000000) o o').2.2.1 (by decide)

end IppCode
