import IppCode.Operators
import Mathlib.Algebra.Order.Ring.Int
import Mathlib.Data.Int.ModEq
import Mathlib.Data.Rat.Floor

/-!
# Integer arithmetic

The operators on two integers compute in 64 bits what they would compute with whole numbers
(`integers_wrap`). The quotient is rounded down, and only the least integer divided by minus one
does not fit.
-/

namespace IppCode

variable {a b : Int} {x y : Int64}

theorem fdiv_eq_of_tdiv (nonzero : b ≠ 0) :
    a.fdiv b = if a.tmod b ≠ 0 ∧ (a < 0 ↔ ¬ b < 0) then a.tdiv b - 1 else a.tdiv b := by
  have exact : b ∣ a ↔ a.tmod b = 0 := Int.dvd_iff_tmod_eq_zero
  have sign : b < 0 → b.sign = -1 := Int.sign_eq_neg_one_of_neg
  have sign' : 0 < b → b.sign = 1 := Int.sign_eq_one_of_pos
  rw [Int.fdiv_eq_tdiv]
  simp only [exact]
  split_ifs <;> omega

theorem floor_intCast_div (a b : Int) : ⌊(a : ℚ) / b⌋ = a.fdiv b := by
  rcases Int.le_total 0 b with positive | negative
  · obtain ⟨n, rfl⟩ := Int.eq_ofNat_of_zero_le positive
    rw [Int.cast_natCast, Rat.floor_intCast_div_natCast, Int.fdiv_eq_ediv_of_nonneg _ positive]
  · obtain ⟨n, same⟩ := Int.eq_ofNat_of_zero_le (Int.neg_nonneg_of_nonpos negative)
    obtain rfl : b = -(n : Int) := by omega
    rw [Int.cast_neg, Int.cast_natCast, div_neg, ← neg_div, ← Int.cast_neg,
      Rat.floor_intCast_div_natCast, ← Int.neg_fdiv_neg, neg_neg,
      Int.fdiv_eq_ediv_of_nonneg _ (Int.natCast_nonneg n)]

def Overflows (x y : Int64) : Prop := x = Int64.minValue ∧ y = -1

theorem toInt_div_of_fits (fits : ¬ Overflows x y) : (x / y).toInt = x.toInt.tdiv y.toInt := by
  by_cases least : x = Int64.minValue
  · exact Int64.toInt_div_of_ne_right x y fun minus => fits ⟨least, minus⟩
  · exact Int64.toInt_div_of_ne_left x y least

theorem fits_of_remainder (inexact : x % y ≠ 0) : ¬ Overflows x y := by
  rintro ⟨rfl, rfl⟩
  exact inexact (by decide)

theorem toInt_ne_zero (nonzero : y ≠ 0) : y.toInt ≠ 0 := fun zero =>
  nonzero (Int64.toInt_inj.1 zero)

theorem toInt_mod_eq_zero : (x % y).toInt = 0 ↔ x % y = 0 := by
  rw [← Int64.toInt_zero, Int64.toInt_inj]

theorem toInt_div_sub_one (nonzero : y ≠ 0) (inexact : x % y ≠ 0) :
    (x / y - 1).toInt = (x / y).toInt - 1 := by
  have remainder : x.toInt.tmod y.toInt ≠ 0 := by
    rw [← Int64.toInt_mod]
    exact mt toInt_mod_eq_zero.1 inexact
  -- A divisor that leaves a remainder is not a unit, so the quotient is not the least integer.
  have divisor : 2 ≤ y.toInt.natAbs := by
    have nonzero := toInt_ne_zero nonzero
    by_contra small
    have unit : y.toInt = 1 ∨ y.toInt = -1 := by omega
    rcases unit with one | one
    · exact remainder (by rw [one, Int.tmod_one])
    · exact remainder (by rw [one, Int.tmod_neg, Int.tmod_one])
  have half : (x / y).toInt.natAbs ≤ x.toInt.natAbs / 2 := by
    rw [toInt_div_of_fits (fits_of_remainder inexact), Int.natAbs_tdiv]
    exact Nat.div_le_div_left divisor (by decide)
  have least := Int64.le_toInt x
  have greatest := Int64.toInt_lt x
  rw [Int64.toInt_sub, Int64.toInt_one]
  exact Int.bmod_eq_of_le (by omega) (by omega)

theorem toInt_floorDiv (nonzero : y ≠ 0) (fits : ¬ Overflows x y) :
    (floorDiv x y).toInt = x.toInt.fdiv y.toInt := by
  have remainder : x.toInt.tmod y.toInt = 0 ↔ x % y = 0 := by
    rw [← Int64.toInt_mod, toInt_mod_eq_zero]
  have sign {z : Int64} : z < 0 ↔ z.toInt < 0 := Int64.lt_iff_toInt_lt
  rw [fdiv_eq_of_tdiv (toInt_ne_zero nonzero), ← toInt_div_of_fits fits, floorDiv]
  simp only [sign, ne_eq, remainder]
  split
  · rename_i below
    exact toInt_div_sub_one nonzero below.1
  · rfl

theorem floorDiv_of_overflows (overflows : Overflows x y) :
    (floorDiv x y).toInt = -2 ^ 63 ∧ x.toInt.fdiv y.toInt = 2 ^ 63 := by
  obtain ⟨rfl, rfl⟩ := overflows
  decide

theorem floorDiv_modEq (nonzero : y ≠ 0) :
    (floorDiv x y).toInt ≡ x.toInt.fdiv y.toInt [ZMOD 2 ^ 64] := by
  by_cases overflows : Overflows x y
  · obtain ⟨wrapped, quotient⟩ := floorDiv_of_overflows overflows
    rw [wrapped, quotient]
    decide
  · rw [toInt_floorDiv nonzero overflows]

theorem toInt_floorDiv_iff (nonzero : y ≠ 0) :
    (floorDiv x y).toInt = x.toInt.fdiv y.toInt ↔ ¬ Overflows x y := by
  refine ⟨fun same overflows => ?_, toInt_floorDiv nonzero⟩
  obtain ⟨wrapped, quotient⟩ := floorDiv_of_overflows overflows
  rw [wrapped, quotient] at same
  exact absurd same (by decide)

theorem exists_remainder (a : Int) (nonzero : b ≠ 0) :
    ∃ r, a = a.fdiv b * b + r ∧ (r = 0 ∨ r.sign = b.sign) ∧ |r| < |b| := by
  refine ⟨a.fmod b, (Int.fdiv_mul_add_fmod a b).symm, ?_⟩
  rcases lt_or_gt_of_ne nonzero with negative | positive
  · have above := Int.fmod_nonneg_of_pos (-a) (Int.neg_pos_of_neg negative)
    have below := Int.fmod_lt_of_pos (-a) (Int.neg_pos_of_neg negative)
    rw [Int.neg_fmod_neg] at above below
    rw [Int.sign_eq_neg_one_of_neg negative, Int.sign_eq_neg_one_iff_neg, Int.abs_eq_natAbs,
      Int.abs_eq_natAbs]
    omega
  · have above := Int.fmod_nonneg_of_pos a positive
    have below := Int.fmod_lt_of_pos a positive
    rw [Int.sign_eq_one_of_pos positive, Int.sign_eq_one_iff_pos, Int.abs_eq_natAbs,
      Int.abs_eq_natAbs]
    omega

theorem bmod_modEq (a : Int) : a.bmod (2 ^ 64) ≡ a [ZMOD 2 ^ 64] := Int.bmod_emod

/-- Sums, differences and products are right modulo `2 ^ 64`, and a quotient is the exact one
rounded down, but for the least integer divided by minus one. The step from the quotient that is
rounded toward zero to the one below never wraps. -/
theorem integers_wrap (x y : Int64) :
    (∃ n, ArithmeticOp.add.apply (.int x) (.int y) = .ok (.int n) ∧
      n.toInt ≡ x.toInt + y.toInt [ZMOD 2 ^ 64]) ∧
    (∃ n, ArithmeticOp.sub.apply (.int x) (.int y) = .ok (.int n) ∧
      n.toInt ≡ x.toInt - y.toInt [ZMOD 2 ^ 64]) ∧
    (∃ n, ArithmeticOp.mul.apply (.int x) (.int y) = .ok (.int n) ∧
      n.toInt ≡ x.toInt * y.toInt [ZMOD 2 ^ 64]) ∧
    (ArithmeticOp.idiv.apply (.int x) (.int y) = .error .divisionByZero ↔ y = 0) ∧
    (ArithmeticOp.div.apply (.int x) (.int y) = .error .divisionByZero ↔ y = 0) ∧
    (y ≠ 0 →
      (∃ q, ArithmeticOp.idiv.apply (.int x) (.int y) = .ok (.int q) ∧
        q.toInt ≡ ⌊(x.toInt : ℚ) / y.toInt⌋ [ZMOD 2 ^ 64] ∧
        (q.toInt = ⌊(x.toInt : ℚ) / y.toInt⌋ ↔ ¬ (x = Int64.minValue ∧ y = -1)) ∧
        (¬ (x = Int64.minValue ∧ y = -1) →
          ∃ r, x.toInt = q.toInt * y.toInt + r ∧ (r = 0 ∨ r.sign = y.toInt.sign) ∧
            |r| < |y.toInt|)) ∧
      (floorDiv x y = x / y ∨
        floorDiv x y = x / y - 1 ∧ (x / y - 1).toInt = (x / y).toInt - 1)) := by
  refine ⟨⟨x + y, rfl, ?_⟩, ⟨x - y, rfl, ?_⟩, ⟨x * y, rfl, ?_⟩, ?_, ?_, fun nonzero => ⟨?_, ?_⟩⟩
  · rw [Int64.toInt_add]
    exact bmod_modEq _
  · rw [Int64.toInt_sub]
    exact bmod_modEq _
  · rw [Int64.toInt_mul]
    exact bmod_modEq _
  · by_cases zero : y = 0 <;> simp [ArithmeticOp.apply, ArithmeticOp.onInts, zero]
  · by_cases zero : y = 0 <;> simp [ArithmeticOp.apply, ArithmeticOp.onInts, zero]
  · refine ⟨floorDiv x y, if_neg nonzero, ?_, ?_, fun fits => ?_⟩
    · rw [floor_intCast_div]
      exact floorDiv_modEq nonzero
    · rw [floor_intCast_div]
      exact toInt_floorDiv_iff nonzero
    · rw [toInt_floorDiv nonzero fits]
      exact exists_remainder x.toInt (toInt_ne_zero nonzero)
  · unfold floorDiv
    split
    · rename_i below
      exact .inr ⟨rfl, toInt_div_sub_one nonzero below.1⟩
    · exact .inl rfl

/-- A quotient that is rounded away from zero, of the greatest size that leaves a remainder. -/
theorem integers_wrap_below :
    ∃ q, ArithmeticOp.idiv.apply (.int (Int64.minValue + 1)) (.int 2) = .ok (.int q) ∧
      q = -0x4000000000000000 ∧
      ∃ r, (Int64.minValue + 1).toInt = q.toInt * (2 : Int64).toInt + r ∧
        (r = 0 ∨ r.sign = (2 : Int64).toInt.sign) ∧ |r| < |(2 : Int64).toInt| := by
  obtain ⟨-, -, -, -, -, quotient⟩ := integers_wrap (Int64.minValue + 1) 2
  obtain ⟨⟨q, result, -, -, remainder⟩, -⟩ := quotient (by decide)
  refine ⟨q, result, ?_, remainder (by decide)⟩
  obtain rfl : floorDiv (Int64.minValue + 1) 2 = q := Value.int.inj (Except.ok.inj result)
  decide

end IppCode
